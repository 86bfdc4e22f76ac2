import AffixRules.Proofs.Equipment.TwoHanded
import Mathlib.Data.List.Induction
import Mathlib.Data.List.Nodup

/-! Taking an item off empties the slots that hold it, and no other. In the reached states each slot
has one place and the serial numbers tell the held items apart; so the slots, the held items and the
list of the items, each once, lose the same item. -/
namespace AffixRules

namespace Equipment

/-- No two items have the same serial number. -/
def ToldApart (is : List Item) : Prop := ∀ i ∈ is, ∀ j ∈ is, i.serial = j.serial → i = j

section Distinct

variable (items : List Item) (item : Item)

theorem distinct_append_singleton :
    distinct (items ++ [item]) =
      if item.serial ∈ (distinct items).map (·.serial) then distinct items
      else distinct items ++ [item] := by
  simp [distinct, List.foldl_append]

theorem distinct_sublist : (distinct items).Sublist items := by
  induction items using List.reverseRecOn with
  | nil => exact List.Sublist.refl _
  | append_singleton items item ih =>
    rw [distinct_append_singleton]
    split
    · exact ih.trans (List.sublist_append_left _ _)
    · exact ih.append (List.Sublist.refl _)

theorem nodup_serials_distinct : ((distinct items).map (·.serial)).Nodup := by
  induction items using List.reverseRecOn with
  | nil => exact List.nodup_nil
  | append_singleton items item ih =>
    rw [distinct_append_singleton]
    split
    · exact ih
    next hnew =>
      rw [List.map_append, List.nodup_append]
      refine ⟨ih, List.nodup_singleton _, fun s hs t ht hst => ?_⟩
      obtain rfl : t = item.serial := by simpa using ht
      exact hnew (hst ▸ hs)

theorem serials_distinct (s : Nat) :
    s ∈ (distinct items).map (·.serial) ↔ s ∈ items.map (·.serial) := by
  induction items using List.reverseRecOn with
  | nil => rfl
  | append_singleton items item ih =>
    rw [distinct_append_singleton]
    split
    next hold =>
      rw [ih, List.map_append, List.mem_append]
      refine (or_iff_left_of_imp fun hs => ?_).symm
      obtain rfl : s = item.serial := by simpa using hs
      exact ih.mp hold
    · simp [ih]

/-- Leaving out a serial number and keeping the first of each commute. -/
theorem distinct_filter (serial : Nat) :
    distinct (items.filter fun i => i.serial ≠ serial) =
      (distinct items).filter fun i => i.serial ≠ serial := by
  induction items using List.reverseRecOn with
  | nil => rfl
  | append_singleton items item ih =>
    rw [distinct_append_singleton, List.filter_append]
    by_cases hs : item.serial = serial
    · have hdrop : [item].filter (fun i => i.serial ≠ serial) = [] := by simp [hs]
      rw [hdrop, List.append_nil, ih]
      split
      · rfl
      · rw [List.filter_append, hdrop, List.append_nil]
    · have hkeep : [item].filter (fun i => i.serial ≠ serial) = [item] := by simp [hs]
      have hmem : item.serial ∈ ((distinct items).filter fun i => i.serial ≠ serial).map
          (·.serial) ↔ item.serial ∈ (distinct items).map (·.serial) := by
        simp only [List.mem_map, List.mem_filter, decide_eq_true_eq]
        exact exists_congr fun i => and_congr_left fun hi => and_iff_left (by rwa [hi])
      rw [hkeep, distinct_append_singleton, ih]
      simp only [hmem]
      split
      · rfl
      · rw [List.filter_append, hkeep]

variable {items item}

theorem mem_distinct (h : ToldApart items) : item ∈ distinct items ↔ item ∈ items := by
  refine ⟨fun hi => (distinct_sublist items).subset hi, fun hi => ?_⟩
  obtain ⟨j, hj, hserial⟩ := List.mem_map.mp
    ((serials_distinct items item.serial).mpr (List.mem_map_of_mem hi))
  rwa [h item hi j ((distinct_sublist items).subset hj) hserial.symm]

end Distinct

theorem mem_all (slot : EquipmentSlot) : slot ∈ (Vocabulary.all : List EquipmentSlot) := by
  cases slot <;> decide

/-- The slots that an item takes up. -/
def slotsOf (e : Equipment) (item : Item) : List EquipmentSlot :=
  Vocabulary.all.filter fun slot => e.at? slot = some item

/-- Equipment with one place for each slot, that holds some of these items. -/
structure HoldsOf (e : Equipment) (is : List Item) : Prop where
  keys : e.keys.Nodup
  mem : ∀ slot i, e.at? slot = some i → i ∈ is

namespace Step

def item? : Step → Option Item
  | equip item _ => some item
  | unequip _ => none

end Step

/-- The items that a run equips. -/
def equipped (ss : List Step) : List Item := ss.filterMap Step.item?

variable {e : Equipment} {is : List Item} {slot : EquipmentSlot} {item : Item}

theorem unequip_of_empty (h : e.at? slot = none) : e.unequip slot = (none, e) := by
  rw [unequip, h]

theorem unequip_of_held (h : e.at? slot = some item) :
    e.unequip slot = (some item, e.mapValues (clearItem item.serial)) := by
  rw [unequip, h]

theorem held_unequip (h : e.at? slot = some item) :
    (e.unequip slot).2.held = e.held.filter fun i => i.serial ≠ item.serial := by
  rw [unequip_of_held h]
  simp [held, Entries.values, Entries.mapValues, List.filter_filterMap, List.filterMap_map,
    Function.comp_def, clearItem]

namespace HoldsOf

theorem empty (is : List Item) : HoldsOf [] is := ⟨List.nodup_nil, by simp [at?]⟩

theorem put (h : e.HoldsOf is) (hi : item ∈ is) (slot : EquipmentSlot) :
    HoldsOf (e.put slot (some item)) is where
  keys := Entries.nodup_keys_put h.keys _ _
  mem other i hother := by
    rw [at?_put] at hother
    split at hother
    · obtain rfl : item = i := Option.some.inj hother
      exact hi
    · exact h.mem other i hother

theorem take (h : e.HoldsOf is) {s : Step} (hs : ∀ i ∈ s.item?, i ∈ is) :
    (s.take e).HoldsOf is := by
  cases s with
  | equip item slot? =>
    have hi : item ∈ is := hs item rfl
    rw [Step.take, equip]
    split
    · exact (h.put hi _).put hi _
    · exact h.put hi _
  | unequip slot =>
    cases hslot : e.at? slot with
    | none =>
      rw [Step.take, unequip_of_empty hslot]
      exact h
    | some item =>
      rw [Step.take, unequip_of_held hslot]
      refine ⟨by rw [Entries.keys_mapValues]; exact h.keys, fun other i hother => ?_⟩
      rw [at?_mapValues_clearItem, clearItem, Option.filter_eq_some_iff] at hother
      exact h.mem other i hother.1

theorem after (h : e.HoldsOf is) {ss : List Step} (hss : ∀ i ∈ equipped ss, i ∈ is) :
    (e.after ss).HoldsOf is := by
  induction ss generalizing e with
  | nil => exact h
  | cons s ss ih =>
    have hs : ∀ i ∈ s.item?, i ∈ is := fun i hi =>
      hss i (List.mem_filterMap.mpr ⟨s, List.mem_cons_self, hi⟩)
    refine ih (h.take hs) fun i hi => ?_
    obtain ⟨t, ht, hti⟩ := List.mem_filterMap.mp hi
    exact hss i (List.mem_filterMap.mpr ⟨t, List.mem_cons_of_mem _ ht, hti⟩)

theorem held_eq (h : e.HoldsOf is) : e.held = e.keys.filterMap e.at? := by
  calc e.held = (e.values.map some).filterMap Option.join := by
        simp [held, List.filterMap_map]
    _ = e.keys.filterMap e.at? := by
        rw [Entries.map_some_values h.keys, List.filterMap_map]
        rfl

/-- A slot that was never filled holds nothing, so the held items are those of all slots. -/
theorem held_perm (h : e.HoldsOf is) :
    e.held.Perm ((Vocabulary.all : List EquipmentSlot).filterMap e.at?) := by
  have hall : (Vocabulary.all : List EquipmentSlot).Nodup := by decide
  have hslots : (Vocabulary.all : List EquipmentSlot).Perm
      (e.keys ++ Vocabulary.all.filter (· ∉ e.keys)) := by
    refine (List.perm_ext_iff_of_nodup hall ?_).mpr fun slot => ?_
    · exact List.nodup_append.mpr ⟨h.keys, hall.filter _, fun a ha b hb hab => by
        simp [← hab, ha] at hb⟩
    · by_cases hslot : slot ∈ e.keys <;> simp [hslot, mem_all]
  have hrest : (Vocabulary.all.filter (· ∉ e.keys)).filterMap e.at? = [] := by
    refine List.filterMap_eq_nil_iff.mpr fun slot hslot => ?_
    have hkey : slot ∉ e.keys := by simpa using (List.mem_filter.mp hslot).2
    rw [at?, Entries.value?_eq_none_iff.mpr hkey]
    rfl
  have hperm := hslots.filterMap e.at?
  rw [List.filterMap_append, hrest, List.append_nil, ← h.held_eq] at hperm
  exact hperm.symm

theorem mem_held (h : e.HoldsOf is) : item ∈ e.held ↔ ∃ slot, e.at? slot = some item := by
  rw [h.held_perm.mem_iff, List.mem_filterMap]
  exact exists_congr fun slot => and_iff_right (mem_all slot)

theorem toldApart_held (h : e.HoldsOf is) (his : ToldApart is) : ToldApart e.held := by
  intro i hi j hj
  obtain ⟨s, hs⟩ := h.mem_held.mp hi
  obtain ⟨t, ht⟩ := h.mem_held.mp hj
  exact his i (h.mem s i hs) j (h.mem t j ht)

theorem mem_items (h : e.HoldsOf is) (his : ToldApart is) :
    item ∈ e.items ↔ ∃ slot, e.at? slot = some item := by
  rw [items, mem_distinct (h.toldApart_held his), h.mem_held]

theorem allFilled_iff (h : e.HoldsOf is) :
    e.allFilled = true ↔ e.filledCount = (Vocabulary.all : List EquipmentSlot).length := by
  rw [filledCount, h.held_perm.length_eq, List.filterMap_length_eq_length, allFilled,
    List.all_eq_true]

theorem serial_ne_iff (h : e.HoldsOf is) (his : ToldApart is) (hslot : e.at? slot = some item)
    {i : Item} (hi : i ∈ e.held) : i.serial ≠ item.serial ↔ i ≠ item := by
  have hitem : item ∈ e.held := h.mem_held.mpr ⟨slot, hslot⟩
  exact not_congr ⟨h.toldApart_held his i hi item hitem, congrArg Item.serial⟩

/-- The slots of the item are empty afterwards, the others hold what they held. -/
theorem at?_unequip (h : e.HoldsOf is) (his : ToldApart is) (hslot : e.at? slot = some item)
    (other : EquipmentSlot) :
    (e.unequip slot).2.at? other = if e.at? other = some item then none else e.at? other := by
  rw [unequip_of_held hslot, at?_mapValues_clearItem, clearItem]
  cases hother : e.at? other with
  | none => rfl
  | some i =>
    have hi := h.serial_ne_iff his hslot (h.mem_held.mpr ⟨other, hother⟩)
    by_cases heq : i = item
    · simp [heq]
    · simp [heq, hi.mpr heq]

theorem filledCount_unequip (h : e.HoldsOf is) (his : ToldApart is)
    (hslot : e.at? slot = some item) :
    (e.unequip slot).2.filledCount + (e.slotsOf item).length = e.filledCount := by
  have hkept : (e.unequip slot).2.filledCount = e.held.countP (· ≠ item) := by
    rw [filledCount, held_unequip hslot, ← List.countP_eq_length_filter]
    exact List.countP_congr fun i hi => by simpa using h.serial_ne_iff his hslot hi
  have htaken : (e.slotsOf item).length = e.held.countP (· = item) := by
    rw [h.held_perm.countP_eq, slotsOf, ← List.countP_eq_length_filter]
    rw [List.countP_filterMap]
    refine List.countP_congr fun other _ => ?_
    cases e.at? other <;> simp
  have hheld := List.length_eq_countP_add_countP (fun i => decide (i = item)) (l := e.held)
  rw [hkept, htaken, filledCount, hheld, Nat.add_comm]
  simp

/-- The list of the items loses the one and keeps its order. -/
theorem items_unequip (h : e.HoldsOf is) (his : ToldApart is) (hslot : e.at? slot = some item) :
    (e.unequip slot).2.items = e.items.erase item := by
  have hnodup : e.items.Nodup := (nodup_serials_distinct e.held).of_map
  rw [items, held_unequip hslot, distinct_filter, hnodup.erase_eq_filter]
  refine List.filter_congr fun i hi => ?_
  have hheld : i ∈ e.held := (distinct_sublist e.held).subset hi
  rw [Bool.eq_iff_iff]
  simpa using h.serial_ne_iff his hslot hheld

theorem raritySum_unequip (h : e.HoldsOf is) (his : ToldApart is) (hslot : e.at? slot = some item) :
    (e.unequip slot).2.raritySum + item.rarity.rank = e.raritySum := by
  have hitem : item ∈ e.items := (h.mem_items his).mpr ⟨slot, hslot⟩
  rw [raritySum, raritySum, h.items_unequip his hslot, (List.perm_cons_erase hitem).foldr_eq']
  · exact Nat.add_comm ..
  · exact fun _ _ _ _ _ => Nat.add_left_comm ..

end HoldsOf

end Equipment

/-- In every state that a run of equipping and unequipping reaches, the list of the items has each
held item once, and all slots are filled exactly when as many are filled as there are. Unequipping an
empty slot changes nothing. From a filled one it takes the item there out of every slot that holds
it and leaves the other slots; the count of the filled slots drops by the slots of the item, the sum
of the rarities by its rank, and the list of the items loses it. -/
theorem unequip_takes_one_item {ss : List Equipment.Step}
    (hss : Equipment.ToldApart (Equipment.equipped ss)) :
    let e := Equipment.after [] ss
    (e.items.map (·.serial)).Nodup ∧
      (∀ i : Item, i ∈ e.items ↔ ∃ slot, e.at? slot = some i) ∧
      (e.allFilled = true ↔ e.filledCount = (Vocabulary.all : List EquipmentSlot).length) ∧
      ∀ slot : EquipmentSlot, (e.at? slot = none → e.unequip slot = (none, e)) ∧
        ∀ item : Item, e.at? slot = some item →
          (e.unequip slot).1 = some item ∧
            (∀ other, (e.unequip slot).2.at? other =
              if e.at? other = some item then none else e.at? other) ∧
            (e.unequip slot).2.filledCount + (e.slotsOf item).length = e.filledCount ∧
            (e.unequip slot).2.raritySum + item.rarity.rank = e.raritySum ∧
            (e.unequip slot).2.items = e.items.erase item := by
  intro e
  have h : e.HoldsOf (Equipment.equipped ss) :=
    (Equipment.HoldsOf.empty _).after fun _ => id
  refine ⟨Equipment.nodup_serials_distinct _, fun _ => h.mem_items hss, h.allFilled_iff, fun slot =>
    ⟨Equipment.unequip_of_empty, fun item hslot => ⟨by rw [Equipment.unequip_of_held hslot], ?_⟩⟩⟩
  exact ⟨h.at?_unequip hss hslot, h.filledCount_unequip hss hslot, h.raritySum_unequip hss hslot,
    h.items_unequip hss hslot⟩

/-- A ring lies in two slots, between a weapon in both hands and a helmet that was taken off. -/
theorem unequip_takes_one_item_from_two_slots :
    let ring : Item :=
      { serial := 0, id := "ring", name := "", slot := .accessory, rarity := .rare }
    let greatsword : Item :=
      { serial := 1, id := "greatsword", name := "", rarity := .epic, twoHanded := true }
    let helmet : Item := { serial := 2, id := "ring", name := "", slot := .head }
    let ss : List Equipment.Step :=
      [.equip helmet none, .equip ring none, .equip greatsword none, .unequip .head,
        .equip ring (some .head)]
    let e := Equipment.after [] ss
    e.items = [ring, greatsword] ∧ (e.unequip .head).1 = some ring ∧
      (e.unequip .head).2.at? .accessory = none ∧
      (e.unequip .head).2.at? .offHand = some greatsword ∧
      (e.unequip .head).2.filledCount + 2 = 4 ∧ (e.unequip .head).2.raritySum + 2 = 5 ∧
      (e.unequip .head).2.items = [greatsword] ∧
      e.unequip .feet = (none, e) := by
  intro ring greatsword helmet ss e
  have htold : Equipment.ToldApart (Equipment.equipped ss) := by
    unfold Equipment.ToldApart
    decide
  have hhead : e.at? .head = some ring := by decide
  have hitems : e.items = [ring, greatsword] := by decide
  obtain ⟨-, -, -, hunequip⟩ := unequip_takes_one_item htold
  obtain ⟨htaken, hslots, hcount, hrarity, hrest⟩ := (hunequip .head).2 ring hhead
  exact ⟨hitems, htaken, (hslots .accessory).trans (by decide), (hslots .offHand).trans (by decide),
    hcount.trans (by decide), hrarity.trans (by decide), hrest.trans (by decide),
    (hunequip .feet).1 (by decide)⟩

end AffixRules
