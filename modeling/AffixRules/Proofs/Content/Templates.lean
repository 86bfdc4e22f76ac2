import AffixRules.Content.Library
import Mathlib.Data.List.Induction

/-! Two ways to a template. A template asked for by its id is the first one of the id, the one kept
and checked under the id is the last; they agree where these two are equal. -/
namespace AffixRules

namespace Entries

variable {κ α : Type} [DecidableEq κ]

theorem ofList_append (pairs : List (κ × α)) (key : κ) (value : α) :
    ofList (pairs ++ [(key, value)]) = (ofList pairs).put key value := by
  simp [ofList]

theorem value?_ofList (pairs : List (κ × α)) (key : κ) :
    (ofList pairs).value? key = (pairs.filter fun p => p.1 = key).getLast?.map Prod.snd := by
  induction pairs using List.reverseRecOn with
  | nil => rfl
  | append_singleton pairs p ih =>
    obtain ⟨k, v⟩ := p
    rw [ofList_append, value?_put, ih]
    by_cases hk : k = key <;> simp [hk]

theorem keys_ofList (pairs : List (κ × α)) :
    (ofList pairs).keys = (pairs.map Prod.fst).eraseDups := by
  induction pairs using List.reverseRecOn with
  | nil => rfl
  | append_singleton pairs p ih =>
    obtain ⟨k, v⟩ := p
    rw [ofList_append, keys_put, ih, List.map_append, List.eraseDups_append]
    by_cases hk : k ∈ (pairs.map Prod.fst).eraseDups <;>
      simp_all [List.removeAll, List.eraseDups_cons]

theorem nodup_keys_ofList (pairs : List (κ × α)) : (ofList pairs).keys.Nodup := by
  induction pairs using List.reverseRecOn with
  | nil => exact List.nodup_nil
  | append_singleton pairs p ih =>
    rw [ofList_append]
    exact nodup_keys_put ih _ _

end Entries

namespace Library

variable (l : Library)

/-- The templates of an id, in the order of the sources. -/
def definitions (id : Label) : List Affix := l.affixes.filter fun a => a.id = id

theorem template?_eq_head? (id : Label) : l.template? id = (l.definitions id).head? :=
  List.head?_filter.symm

theorem value?_templates (id : Label) :
    l.templates.value? id = (l.definitions id).getLast? := by
  rw [templates, Entries.value?_ofList, List.filter_map, List.getLast?_map, Option.map_map]
  exact Option.map_id'

theorem id_of_mem_definitions {id : Label} {a : Affix} (h : a ∈ l.definitions id) : a.id = id := by
  simpa using (List.mem_filter.mp h).2

/-- The templates that are checked are the last ones of their ids. -/
theorem mem_values_templates {a : Affix} :
    a ∈ l.templates.values ↔ (l.definitions a.id).getLast? = some a := by
  have hvalue (key : Label) : l.templates.value? key = some a ↔ (key, a) ∈ l.templates :=
    Entries.value?_eq_some_iff (Entries.nodup_keys_ofList _)
  rw [← value?_templates]
  constructor
  · intro h
    obtain ⟨⟨key, b⟩, hmem, rfl⟩ := List.mem_map.mp h
    have hlast := (hvalue key).mpr hmem
    have hid : b.id = key := by
      rw [value?_templates] at hlast
      exact l.id_of_mem_definitions (List.mem_of_getLast? hlast)
    exact hid ▸ hlast
  · intro h
    exact List.mem_map.mpr ⟨(a.id, a), (hvalue a.id).mp h, rfl⟩

end Library

/-- An id has no template exactly when it is not a key of the templates. The template asked for by
an id is the first of the id, the one kept under it the last; they are the same exactly when the one
handed out is among those that are checked. -/
theorem template_lookups_agree_iff (l : Library) (id : Label) :
    (l.template? id = none ↔ id ∉ l.templates.keys) ∧
      l.template? id = (l.definitions id).head? ∧
      l.templates.value? id = (l.definitions id).getLast? ∧
      (l.template? id = l.templates.value? id ↔
        ∀ a, l.template? id = some a → a ∈ l.templates.values) := by
  have hfirst := l.template?_eq_head? id
  have hlast := l.value?_templates id
  have hnone : l.template? id = none ↔ l.templates.value? id = none := by
    rw [hfirst, hlast, List.head?_eq_none_iff, List.getLast?_eq_none_iff]
  refine ⟨hnone.trans Entries.value?_eq_none_iff, hfirst, hlast, ?_⟩
  cases h : l.template? id with
  | none => simp [hnone.mp h]
  | some a =>
    have hid : a.id = id := l.id_of_mem_definitions (List.mem_of_head? (hfirst ▸ h))
    rw [hlast]
    simp [l.mem_values_templates, hid, eq_comm]

/-- Between two equal templates of an id another one stands: it is neither handed out nor checked,
and an id of no template is no key. -/
theorem template_lookups_agree_around_another :
    let ember : Affix := { id := "ember", name := "Ember", effect := { kind := .flatBonus } }
    let cinder : Affix := { id := "ember", name := "Cinder" }
    let frost : Affix := { id := "frost", name := "Frost" }
    let l : Library := { dice := [ember, frost], item := [cinder], run := [ember] }
    l.template? "ember" = l.templates.value? "ember" ∧ ember ∈ l.templates.values ∧
      ("ash" : Label) ∉ l.templates.keys := by
  intro ember cinder frost l
  obtain ⟨-, hfirst, hlast, hiff⟩ := template_lookups_agree_iff l "ember"
  have hends : (l.definitions "ember").head? = (l.definitions "ember").getLast? := by decide
  have hagree : l.template? "ember" = l.templates.value? "ember" :=
    hfirst.trans (hends.trans hlast.symm)
  refine ⟨hagree, hiff.mp hagree ember (by decide), ?_⟩
  exact (template_lookups_agree_iff l "ash").1.mp (by decide)

/-- Two files repeat an id. The content passes its check without a warning, and the template handed
out for the id is another one than was checked, with a fault. -/
theorem repeated_id_hands_out_unchecked :
    let diceFile : Document := .object [("affixes", .list [.object
      [("id", .text "ember"), ("name", .text "Ember"), ("effect_type", .text "leech_heal")]])]
    let itemFile : Document := .object [("affixes", .list [.object
      [("id", .text "ember"), ("name", .text "Cinder")]])]
    ∃ dice item, Affix.allOfDocument diceFile = .ok dice ∧ Affix.allOfDocument itemFile = .ok item ∧
      let l : Library := { dice, item }
      l.warnings = [] ∧ l.template? "ember" ≠ l.templates.value? "ember" ∧
        ∃ a, l.template? "ember" = some a ∧ a ∉ l.templates.values ∧ a.warnings ≠ [] := by
  intro diceFile itemFile
  let ember : Affix := { id := "ember", name := "Ember", effect := { kind := .leechHeal } }
  let cinder : Affix := { id := "ember", name := "Cinder" }
  refine ⟨[ember], [cinder], ?_, ?_, ?_⟩
  · rfl
  · rfl
  · refine ⟨by decide, by decide, ember, by decide, by decide, by decide⟩

end AffixRules
