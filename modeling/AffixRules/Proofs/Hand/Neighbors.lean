import AffixRules.Hand.Steps
import Mathlib.Data.Option.Basic

/-! Neighbors. In a hand whose slots are the places of its dice, the place in the list, the first die
that a search for the slot finds and the last one are the same. -/
namespace AffixRules

section

variable {α : Type} {as : List α} {a : α} {slotOf : α → Int} {slot : Int}

/-- The item in a slot; slots count from zero. -/
def slotIn? (as : List α) (slot : Int) : Option α := if slot < 0 then none else as[slot.toNat]?

theorem slotIn?_of_neg (as : List α) (h : slot < 0) : slotIn? as slot = none := if_pos h

@[simp] theorem slotIn?_natCast (as : List α) (k : Nat) : slotIn? as k = as[k]? := by
  have hk : ¬ (k : Int) < 0 := by omega
  rw [slotIn?, if_neg hk, Int.toNat_natCast]

theorem slotIn?_cons (a : α) (as : List α) (k : Nat) :
    slotIn? (a :: as) ((k : Int) + 1) = slotIn? as k := by
  change slotIn? (a :: as) ((k + 1 : Nat) : Int) = _
  rw [slotIn?_natCast, slotIn?_natCast, List.getElem?_cons_succ]

theorem slotIn?_of_length_le (h : (as.length : Int) ≤ slot) : slotIn? as slot = none := by
  unfold slotIn?
  split
  · rfl
  · exact List.getElem?_eq_none (by omega)

theorem placeIn_of_slotIn? (h : slotIn? as slot = some a) : placeIn as slot = .ok a := by
  unfold slotIn? at h
  split at h
  · cases h
  next hs => simp [placeIn, hs, h]

/-- If the slots of items are their places, a slot is that of the item there and of no other. -/
theorem filter_eq_slotIn? (start : Nat)
    (h : ∀ (k : Nat) (a : α), as[k]? = some a → slotOf a = start + k) (slot : Int) :
    as.filter (fun a => slotOf a = slot) = (slotIn? as (slot - start)).toList := by
  induction as generalizing start with
  | nil => simp [slotIn?]
  | cons a as ih =>
    have ha : slotOf a = start := by simpa using h 0 a rfl
    have hrest := ih (start + 1) fun k b hb => by
      rw [h (k + 1) b (by simpa using hb)]
      omega
    rw [List.filter_cons, hrest, ha]
    obtain hlt | rfl | ⟨k, rfl⟩ : slot < start ∨ slot = start ∨ ∃ k : Nat, slot = start + (k + 1) := by
      by_cases hs : (start : Int) < slot
      · exact .inr (.inr ⟨(slot - start - 1).toNat, by omega⟩)
      · omega
    · rw [slotIn?_of_neg _ (by omega), slotIn?_of_neg _ (by omega), if_neg (by simp; omega)]
    · rw [slotIn?_of_neg _ (by omega), Int.sub_self, if_pos (by simp)]
      rfl
    · have hk : (start : Int) + (k + 1) - (start + 1 : Nat) = k := by omega
      have hs : (start : Int) + (k + 1) - start = k + 1 := by omega
      rw [hk, hs, slotIn?_cons, if_neg (by simp; omega)]

theorem find?_eq_slotIn? (h : ∀ (k : Nat) (a : α), as[k]? = some a → slotOf a = k) (slot : Int) :
    as.find? (fun a => slotOf a = slot) = slotIn? as slot := by
  rw [← List.head?_filter, filter_eq_slotIn? 0 (by simpa using h)]
  simp

end

namespace Play

variable {σ : Type} {p : Play σ} {i : DieId} {k : Nat}

section

variable (hslots : ∀ (k : Nat) (i : DieId), p.hand.dice[k]? = some i → (p.dieOf i).slot = k)
include hslots

theorem dieAt?_dice (slot : Int) :
    dieAt? p.dice slot = (slotIn? p.hand.dice slot).map p.dieOf := by
  rw [← find?_eq_slotIn? hslots]
  exact List.find?_map

theorem lastAt?_eq (slot : Int) : p.tray.lastAt? p.hand.dice slot = slotIn? p.hand.dice slot := by
  have hfilter := filter_eq_slotIn? 0 (by simpa using hslots) slot
  rw [Tray.lastAt?]
  refine (congrArg List.getLast? hfilter).trans ?_
  rw [Int.natCast_zero, Int.sub_zero]
  cases slotIn? p.hand.dice slot <;> rfl

/-- The dice at the places next to that of a die, where the hand has such places. -/
theorem neighbors_eq {ref : DieRef} (hl : p.locate ref = .ok i) (hi : p.hand.dice[k]? = some i) :
    p.neighbors ref = .ok ((slotIn? p.hand.dice (k - 1)).map p.dieOf,
      (slotIn? p.hand.dice (k + 1)).map p.dieOf) := by
  have hlt : k < p.hand.dice.length := (List.getElem?_eq_some_iff.mp hi).1
  have hplace {slot : Int} (h : 0 ≤ slot ∧ slot < p.hand.dice.length) :
      (placeIn p.dice slot).map some = .ok ((slotIn? p.hand.dice slot).map p.dieOf) := by
    obtain ⟨n, rfl⟩ : ∃ n : Nat, slot = n := ⟨slot.toNat, by omega⟩
    have hn : n < p.hand.dice.length := by omega
    have hdie : slotIn? p.dice n = some (p.dieOf p.hand.dice[n]) := by
      simp [dice, Tray.dice, hn, dieOf]
    rw [placeIn_of_slotIn? hdie, slotIn?_natCast, List.getElem?_eq_getElem hn]
    rfl
  have hlength : p.dice.length = p.hand.dice.length := List.length_map _
  unfold neighbors
  simp only [bind, Except.bind, hl, hslots k i hi, hlength]
  by_cases h0 : 0 < (k : Int) <;> by_cases h1 : (k : Int) + 1 < p.hand.dice.length <;>
    simp (disch := omega) only [h0, h1, if_true, if_false, hplace, slotIn?_of_neg,
      slotIn?_of_length_le] <;> rfl

theorem targets_left (hi : p.hand.dice[k]? = some i) :
    p.tray.targets p.hand.dice i .left =
      ((slotIn? p.hand.dice (k - 1)).filter fun j => !(p.dieOf j).consumed).toList := by
  have hk : (p.tray.get i).slot = k := hslots k i hi
  rw [Tray.targets, Tray.beside, lastAt?_eq hslots, hk]
  rfl

theorem targets_right (hi : p.hand.dice[k]? = some i) :
    p.tray.targets p.hand.dice i .right =
      ((slotIn? p.hand.dice (k + 1)).filter fun j => !(p.dieOf j).consumed).toList := by
  have hk : (p.tray.get i).slot = k := hslots k i hi
  rw [Tray.targets, Tray.beside, lastAt?_eq hslots, hk]
  rfl

theorem neighbor?_eq {v : View} (hrelated : v.related = p.dice) (hindex : v.index = k) (offset : Int) :
    v.neighbor? offset = (slotIn? p.hand.dice (k + offset)).map p.dieOf := by
  rw [View.neighbor?, hrelated, hindex, dieAt?_dice hslots]

end

end Play

namespace Condition

variable {c : Condition} {v : View}

theorem countsAsUsed_iff (scene : Scene) (d : Die) :
    countsAsUsed scene d = true ↔ d.consumed = true ∨ d.slot ∈ scene.used := by
  simp [countsAsUsed, Scene.isUsed]

theorem evaluate_neighborsUsed (hc : c.kind = .neighborsUsed) :
    ∃ r, c.evaluate v = .ok r ∧ (r.blocked = c.invert ↔
      ∃ left ∈ v.neighbor? (-1), ∃ right ∈ v.neighbor? 1,
        (left.consumed = true ∨ left.slot ∈ v.scene.used) ∧
          (right.consumed = true ∨ right.slot ∈ v.scene.used)) := by
  refine ⟨if c.invert then (neighborsVerdict v).flipped else neighborsVerdict v, ?_, ?_⟩
  · simp [evaluate, verdict, hc, Except.map]
  · unfold neighborsVerdict
    cases v.neighbor? (-1) <;> cases v.neighbor? 1 <;> cases c.invert <;>
      simp [Verdict.gate, Verdict.flipped, countsAsUsed_iff]

theorem qualifyingNeighbors_eq (c : Condition) (v : View) :
    c.qualifyingNeighbors v =
      (((v.neighbor? (-1)).toList ++ (v.neighbor? 1).toList).mapM fun d => toDouble d.value).map
        fun xs => xs.countP fun x => c.threshold ≤ x := by
  have hone (x : Float) :
      (decide (c.threshold ≤ x)).toNat = if c.threshold ≤ x then 1 else 0 := by
    by_cases h : c.threshold ≤ x <;> simp [h]
  unfold qualifyingNeighbors
  cases v.neighbor? (-1) with
  | none =>
    cases v.neighbor? 1 with
    | none => rfl
    | some right =>
      cases hr : toDouble right.value <;>
        simp [qualifies, hr, bind, Except.bind, Except.map, pure, Except.pure, hone]
  | some left =>
    cases hl : toDouble left.value with
    | error e => simp [qualifies, hl, bind, Except.bind, Except.map]
    | ok x =>
      cases v.neighbor? 1 with
      | none => simp [qualifies, hl, bind, Except.bind, Except.map, pure, Except.pure, hone]
      | some right =>
        cases hr : toDouble right.value <;>
          simp [qualifies, hl, hr, bind, Except.bind, Except.map, pure, Except.pure, hone,
            List.countP_cons, Nat.add_comm]

theorem evaluate_perQualifyingNeighbor (hc : c.kind = .perQualifyingNeighbor) :
    c.evaluate v =
      (((v.neighbor? (-1)).toList ++ (v.neighbor? 1).toList).mapM fun d => toDouble d.value).map
        fun xs =>
          { blocked := c.invert, multiplier := Float.ofNat (xs.countP fun x => c.threshold ≤ x) } := by
  simp only [evaluate, verdict, hc, qualifyingNeighbors_eq]
  generalize List.mapM (fun d : Die => toDouble d.value) _ = values
  cases values <;> cases c.invert <;> rfl

end Condition

/-- Where the slots of a hand are the places of its dice, the neighbors of a die are the same by place,
for the search of conditions and, unless consumed, for targets. Both are used where both are there, each
consumed or its slot marked, so at an edge they never are; of those there are, consumed ones included,
the ones that reach a threshold are counted. -/
theorem neighbors_agree {σ : Type} {p : Play σ}
    (hslots : ∀ (k : Nat) (i : DieId), p.hand.dice[k]? = some i → (p.dieOf i).slot = k)
    {k : Nat} {i : DieId} (hi : p.hand.dice[k]? = some i)
    {v : View} (hrelated : v.related = p.dice) (hindex : v.index = k) :
    let left? := slotIn? p.hand.dice (k - 1)
    let right? := slotIn? p.hand.dice (k + 1)
    p.neighbors (.slot k) = .ok (left?.map p.dieOf, right?.map p.dieOf) ∧
      p.neighbors (.die i) = .ok (left?.map p.dieOf, right?.map p.dieOf) ∧
      v.neighbor? (-1) = left?.map p.dieOf ∧ v.neighbor? 1 = right?.map p.dieOf ∧
      p.tray.targets p.hand.dice i .left =
        (left?.filter fun j => !(p.dieOf j).consumed).toList ∧
      p.tray.targets p.hand.dice i .right =
        (right?.filter fun j => !(p.dieOf j).consumed).toList ∧
      (∀ c : Condition, c.kind = .neighborsUsed → ∃ r, c.evaluate v = .ok r ∧
        (r.blocked = c.invert ↔ ∃ l ∈ left?, ∃ r ∈ right?,
          ((p.dieOf l).consumed = true ∨ (p.dieOf l).slot ∈ v.scene.used) ∧
            ((p.dieOf r).consumed = true ∨ (p.dieOf r).slot ∈ v.scene.used)) ∧
        (k = 0 ∨ k + 1 = p.hand.dice.length → r.blocked = !c.invert)) ∧
      ∀ c : Condition, c.kind = .perQualifyingNeighbor →
        c.evaluate v =
          ((left?.toList ++ right?.toList).mapM fun j => toDouble (p.dieOf j).value).map fun xs =>
            { blocked := c.invert
              multiplier := Float.ofNat (xs.countP fun x => c.threshold ≤ x) } := by
  intro left? right?
  have hleft : v.neighbor? (-1) = left?.map p.dieOf :=
    Play.neighbor?_eq hslots hrelated hindex (-1)
  have hright : v.neighbor? 1 = right?.map p.dieOf := Play.neighbor?_eq hslots hrelated hindex 1
  have hslot : p.locate (.slot k) = .ok i := by
    have hk : ¬ (k : Int) < 0 := by omega
    simp [Play.locate, hi, hk]
  have hdie : p.locate (.die i) = .ok i := by
    simp [Play.locate, List.mem_of_getElem? hi]
  refine ⟨Play.neighbors_eq hslots hslot hi, Play.neighbors_eq hslots hdie hi, hleft, hright,
    Play.targets_left hslots hi, Play.targets_right hslots hi, fun c hc => ?_, fun c hc => ?_⟩
  · obtain ⟨r, hr, hblocked⟩ := Condition.evaluate_neighborsUsed (v := v) hc
    simp only [hleft, hright, Option.exists_mem_map] at hblocked
    refine ⟨r, hr, hblocked, fun hedge => ?_⟩
    have hnone : left? = none ∨ right? = none := by
      obtain rfl | hlast := hedge
      · exact .inl (slotIn?_of_neg _ (by omega))
      · exact .inr (slotIn?_of_length_le (by omega))
    have hnot : r.blocked ≠ c.invert := fun h => by
      obtain ⟨l, hl, m, hm, -⟩ := hblocked.mp h
      obtain hn | hn := hnone
      · simp [hn] at hl
      · simp [hn] at hm
    exact Bool.eq_not_of_ne hnot
  · rw [Condition.evaluate_perQualifyingNeighbor hc, hleft, hright]
    rw [Option.toList_map, Option.toList_map, ← List.map_append, List.mapM_map]
    rfl

/-- Of three dice the middle one has a consumed neighbor and one whose slot is marked, so its gate
opens. The last one has one neighbor, which is used; the mark on the slot beyond counts for nothing. -/
theorem neighbors_agree_in_middle_and_at_edge :
    let cells : List (Nat × Die) :=
      [(0, { slot := 0, value := 5, consumed := true }), (1, { slot := 1 }),
        (2, { slot := 2, value := 4 })]
    let p : Play Script :=
      { tray := { cells, next := 3 }, hand := { dice := [0, 1, 2] }, scene := { used := [1, 2, 3] }
        chance := { draws := [] } }
    let v (i : DieId) : View := .ofContext { p.scene with hand := p.dice } (.die (p.dieOf i)) none none
    let used : Condition := { kind := .neighborsUsed }
    let qualifying : Condition := { kind := .perQualifyingNeighbor, threshold := 5 }
    (p.neighbors (.slot 1) = .ok (some (p.dieOf 0), some (p.dieOf 2)) ∧
      p.tray.targets p.hand.dice 1 .left = [] ∧ p.tray.targets p.hand.dice 1 .right = [2] ∧
      (∃ r, used.evaluate (v 1) = .ok r ∧ r.blocked = false) ∧
      (qualifying.evaluate (v 1)).toOption = some { multiplier := 1 }) ∧
    p.neighbors (.slot 2) = .ok (some (p.dieOf 1), none) ∧
      ∃ r, used.evaluate (v 2) = .ok r ∧ r.blocked = true := by
  intro cells p v used qualifying
  have hslots : ∀ (k : Nat) (i : DieId), p.hand.dice[k]? = some i → (p.dieOf i).slot = k
    | 0, _, rfl => by decide
    | 1, _, rfl => by decide
    | 2, _, rfl => by decide
  obtain ⟨hmiddle, -, -, -, hleft, hright, hused, hqualifying⟩ :=
    neighbors_agree hslots (k := 1) (i := 1) rfl (v := v 1) rfl rfl
  obtain ⟨hlast, -, -, -, -, -, hedge, -⟩ :=
    neighbors_agree hslots (k := 2) (i := 2) rfl (v := v 2) rfl rfl
  obtain ⟨r, hr, hopen, -⟩ := hused used rfl
  obtain ⟨s, hs, -, hshut⟩ := hedge used rfl
  -- the left neighbor is consumed, the slot of the right one is marked
  have hboth : r.blocked = false :=
    hopen.mpr ⟨0, rfl, 2, rfl, .inl (by decide), .inr (by decide)⟩
  exact ⟨⟨hmiddle, hleft.trans (by decide), hright.trans (by decide), ⟨r, hr, hboth⟩,
    (congrArg Except.toOption (hqualifying _ rfl)).trans (by decide +kernel)⟩,
    hlast, s, hs, hshut (.inr rfl)⟩

end AffixRules
