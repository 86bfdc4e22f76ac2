import AffixRules.Dispatch.Targets
import Mathlib.Data.List.Nodup

/-! How the target selectors fit together. The die beside a source is the last one of its slot, so
where the dice of a hand stand in different slots their order does not matter. The selectors of all
dice and of all but the source part ways only at a source that is unconsumed. -/
namespace AffixRules.Tray

variable {t : Tray} {hand hand' : List DieId} {source i : DieId} {slot offset : Int}
  {selector : TargetSelector}

/-- The last die of a hand in a slot. -/
def LastIn (t : Tray) (hand : List DieId) (slot : Int) (i : DieId) : Prop :=
  ∃ before after, hand = before ++ i :: after ∧ (t.get i).slot = slot ∧
    ∀ j ∈ after, (t.get j).slot ≠ slot

theorem ready_iff : t.ready i = true ↔ (t.get i).consumed = false := by
  simp [ready]

theorem lastAt?_eq_some_iff : t.lastAt? hand slot = some i ↔ t.LastIn hand slot i := by
  have hfind : t.lastAt? hand slot = hand.reverse.find? fun j => (t.get j).slot = slot := by
    rw [lastAt?, ← List.head?_reverse, ← List.filter_reverse, List.head?_filter]
  rw [hfind, List.find?_eq_some_iff_append]
  constructor
  · rintro ⟨hslot, after, before, hand_eq, hafter⟩
    refine ⟨before.reverse, after.reverse, ?_, by simpa using hslot, fun j hj => ?_⟩
    · rw [← List.reverse_reverse hand, hand_eq]
      simp
    · simpa using hafter j (List.mem_reverse.mp hj)
  · rintro ⟨before, after, rfl, hslot, hafter⟩
    refine ⟨by simpa using hslot, after.reverse, before.reverse, by simp, fun j hj => ?_⟩
    simpa using hafter j (List.mem_reverse.mp hj)

theorem LastIn.mem_hand (h : t.LastIn hand slot i) : i ∈ hand := by
  obtain ⟨before, after, rfl, -⟩ := h
  simp

theorem LastIn.slot_eq (h : t.LastIn hand slot i) : (t.get i).slot = slot := by
  obtain ⟨before, after, -, hslot, -⟩ := h
  exact hslot

/-- Where the dice stand in different slots, the only die of a slot is the last one. -/
theorem lastIn_iff_of_nodup_slots (hslots : (hand.map fun j => (t.get j).slot).Nodup) :
    t.LastIn hand slot i ↔ i ∈ hand ∧ (t.get i).slot = slot := by
  refine ⟨fun h => ⟨h.mem_hand, h.slot_eq⟩, fun ⟨hi, hslot⟩ => ?_⟩
  obtain ⟨before, after, rfl⟩ := List.append_of_mem hi
  refine ⟨before, after, rfl, hslot, fun j hj hsame => ?_⟩
  rw [List.map_append, List.map_cons] at hslots
  obtain ⟨hnot, -⟩ := List.nodup_cons.mp (List.nodup_append.mp hslots).2.1
  exact hnot (List.mem_map.mpr ⟨j, hj, hsame.trans hslot.symm⟩)

theorem mem_beside_iff : i ∈ t.beside hand source offset ↔
    t.LastIn hand ((t.get source).slot + offset) i ∧ t.ready i = true := by
  rw [beside, Option.mem_toList, Option.filter_eq_some_iff, lastAt?_eq_some_iff]

theorem slot_of_mem_beside (h : i ∈ t.beside hand source offset) :
    (t.get i).slot = (t.get source).slot + offset :=
  (mem_beside_iff.mp h).1.slot_eq

theorem source_not_mem_beside (h : offset ≠ 0) : source ∉ t.beside hand source offset := by
  intro hmem
  have hslot := slot_of_mem_beside hmem
  omega

theorem nodup_beside : (t.beside hand source offset).Nodup := by
  unfold beside
  cases (t.lastAt? hand ((t.get source).slot + offset)).filter t.ready <;> simp

/-- Only the source itself can be a target while it is consumed or outside the hand. -/
theorem ready_of_mem_targets (hs : selector ≠ .self) (h : i ∈ t.targets hand source selector) :
    i ∈ hand ∧ t.ready i = true := by
  have beside {offset : Int} (hi : i ∈ t.beside hand source offset) :
      i ∈ hand ∧ t.ready i = true := by
    obtain ⟨hlast, hready⟩ := mem_beside_iff.mp hi
    exact ⟨hlast.mem_hand, hready⟩
  cases selector with
  | self => exact absurd rfl hs
  | left => exact beside h
  | right => exact beside h
  | neighbors => exact (List.mem_append.mp h).elim beside beside
  | all => exact List.mem_filter.mp h
  | allExceptSource =>
    obtain ⟨hmem, hready⟩ := List.mem_filter.mp h
    exact ⟨hmem, (Bool.and_eq_true_iff.mp hready).1⟩

theorem mem_hand_of_mem_targets (hs : source ∈ hand) (h : i ∈ t.targets hand source selector) :
    i ∈ hand := by
  by_cases hself : selector = .self
  · subst hself
    exact List.mem_singleton.mp h ▸ hs
  · exact (ready_of_mem_targets hself h).1

theorem nodup_targets (hn : hand.Nodup) (source : DieId) (selector : TargetSelector) :
    (t.targets hand source selector).Nodup := by
  cases selector with
  | self => exact List.nodup_singleton source
  | left => exact nodup_beside
  | right => exact nodup_beside
  | neighbors =>
    refine List.nodup_append.mpr ⟨nodup_beside, nodup_beside, fun i hi j hj hij => ?_⟩
    have hleft := slot_of_mem_beside hi
    have hright := slot_of_mem_beside hj
    rw [← hij] at hright
    omega
  | all => exact hn.filter _
  | allExceptSource => exact hn.filter _

theorem targets_allExceptSource (hn : hand.Nodup) :
    t.targets hand source .allExceptSource = (t.targets hand source .all).erase source := by
  simp only [targets]
  rw [(hn.filter _).erase_eq_filter, List.filter_filter]
  refine List.filter_congr fun i _ => ?_
  by_cases hi : i = source <;> simp [hi]

theorem targets_allExceptSource_eq_all_iff (hs : source ∈ hand) :
    t.targets hand source .allExceptSource = t.targets hand source .all ↔
      (t.get source).consumed = true := by
  constructor
  · intro heq
    by_contra hc
    have hall : source ∈ t.targets hand source .all :=
      List.mem_filter.mpr ⟨hs, ready_iff.mpr (Bool.eq_false_iff.mpr hc)⟩
    rw [← heq] at hall
    simp [targets] at hall
  · intro hc
    refine List.filter_congr fun i _ => ?_
    by_cases hi : i = source
    · subst hi
      simp [ready, hc]
    · simp [hi]

/-- Of the dice, only their slots and whether they are consumed matter. -/
theorem targets_eq_of_slots {u : Tray} (hslot : ∀ i, (u.get i).slot = (t.get i).slot)
    (hready : u.ready = t.ready) (hand : List DieId) (source : DieId) (selector : TargetSelector) :
    u.targets hand source selector = t.targets hand source selector := by
  cases selector <;> simp only [targets, beside, lastAt?, hslot, hready]

/-- The order of dice that stand in different slots does not matter for what is selected. -/
theorem mem_targets_iff_of_perm (hp : hand'.Perm hand)
    (hslots : (hand.map fun j => (t.get j).slot).Nodup) :
    i ∈ t.targets hand' source selector ↔ i ∈ t.targets hand source selector := by
  have hslots' : (hand'.map fun j => (t.get j).slot).Nodup := (hp.map _).nodup_iff.mpr hslots
  have hbeside (offset : Int) :
      i ∈ t.beside hand' source offset ↔ i ∈ t.beside hand source offset := by
    rw [mem_beside_iff, mem_beside_iff, lastIn_iff_of_nodup_slots hslots,
      lastIn_iff_of_nodup_slots hslots', hp.mem_iff]
  cases selector with
  | self => exact Iff.rfl
  | left => exact hbeside (-1)
  | right => exact hbeside 1
  | neighbors => simp only [targets, List.mem_append, hbeside]
  | all => exact (hp.filter _).mem_iff
  | allExceptSource => exact (hp.filter _).mem_iff

theorem targets_perm (hp : hand'.Perm hand) (hslots : (hand.map fun j => (t.get j).slot).Nodup)
    (source : DieId) (selector : TargetSelector) :
    (t.targets hand' source selector).Perm (t.targets hand source selector) := by
  have hn : hand.Nodup := hslots.of_map
  have hn' : hand'.Nodup := hp.nodup_iff.mpr hn
  refine (List.perm_ext_iff_of_nodup (nodup_targets hn' source selector)
    (nodup_targets hn source selector)).mpr fun i => ?_
  exact mem_targets_iff_of_perm hp hslots

end AffixRules.Tray
