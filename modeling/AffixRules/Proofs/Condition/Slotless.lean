import AffixRules.Proofs.Hand.Neighbors
import AffixRules.Pool.Aggregate
import Mathlib.Control.Monad.Basic

/-! Entities without a slot. Their slot counts as the one before the first, so the die in the first
slot is their right neighbor, and they have no left one. -/
namespace AffixRules

namespace Condition

/-- What the die in the first slot counts for. -/
def firstDieScale (c : Condition) (hand : List Die) : Except Failure Float :=
  match hand.head? with
  | some d => (toDouble d.value).map fun x => if c.threshold ≤ x then 1 else 0
  | none => .ok 0

variable {c : Condition} {v w : View}

/-- A condition looks at its neighbors and at nothing else in the hand. -/
theorem evaluate_of_neighbors (hscene : v.scene = w.scene) (hsubject : v.subject = w.subject)
    (hleft : v.neighbor? (-1) = w.neighbor? (-1)) (hright : v.neighbor? 1 = w.neighbor? 1) :
    c.evaluate v = c.evaluate w := by
  have hself : v.selfValue = w.selfValue := by
    unfold View.selfValue
    rw [hscene, hsubject]
  have hused : neighborsVerdict v = neighborsVerdict w := by
    unfold neighborsVerdict
    rw [hscene, hleft, hright]
  have hcount : c.qualifyingNeighbors v = c.qualifyingNeighbors w := by
    unfold qualifyingNeighbors
    rw [hleft, hright]
  simp only [evaluate, verdict, selfVerdict, maximumVerdict, hself, hscene, hsubject, hused, hcount]

theorem firstDieScale_eq_zero_iff (c : Condition) (hand : List Die) :
    c.firstDieScale hand = .ok 0 ↔
      ∀ d ∈ hand.head?, ∃ x, toDouble d.value = .ok x ∧ ¬ c.threshold ≤ x := by
  have hone : (1 : Float) ≠ 0 := by decide +kernel
  unfold firstDieScale
  cases hand.head? with
  | none => simp
  | some d =>
    cases hx : toDouble d.value with
    | error e => simp [hx, Except.map]
    | ok x => by_cases h : c.threshold ≤ x <;> simp [hx, Except.map, h, hone]

end Condition

section

variable {context : Context} {subject : Subject}
  (hslots : ∀ (k : Nat) (d : Die), context.hand[k]? = some d → d.slot = k) (hs : subject.slot = -1)
include hslots hs

theorem View.neighbor?_of_slotless (offset : Int) :
    (View.ofContext context subject none none).neighbor? offset =
      slotIn? context.hand (offset - 1) := by
  have hindex : (View.ofContext context subject none none).index = -1 := hs
  rw [neighbor?, hindex, dieAt?, Int.add_comm]
  exact find?_eq_slotIn? hslots (offset - 1)

theorem View.left_of_slotless :
    (View.ofContext context subject none none).neighbor? (-1) = none :=
  (View.neighbor?_of_slotless hslots hs _).trans (slotIn?_of_neg _ (by omega))

theorem View.right_of_slotless :
    (View.ofContext context subject none none).neighbor? 1 = context.hand.head? := by
  rw [View.neighbor?_of_slotless hslots hs, List.head?_eq_getElem?]
  exact slotIn?_natCast context.hand 0

variable {c : Condition}

theorem Condition.evaluate_perQualifyingNeighbor_of_slotless (hc : c.kind = .perQualifyingNeighbor) :
    c.evaluate (.ofContext context subject none none) =
      (c.firstDieScale context.hand).map fun x => { blocked := c.invert, multiplier := x } := by
  rw [evaluate_perQualifyingNeighbor hc, View.left_of_slotless hslots hs,
    View.right_of_slotless hslots hs, firstDieScale]
  cases context.hand.head? with
  | none => rfl
  | some d =>
    simp only [Option.toList, List.nil_append, List.mapM_cons, List.mapM_nil]
    cases toDouble d.value with
    | error e => rfl
    | ok x =>
      change Except.ok _ = Except.ok _
      by_cases h : c.threshold ≤ x <;> simp only [List.countP_cons, List.countP_nil, h] <;> rfl

theorem Condition.evaluate_neighborsUsed_of_slotless (hc : c.kind = .neighborsUsed) :
    c.evaluate (.ofContext context subject none none) = .ok { blocked := !c.invert } := by
  have hv : neighborsVerdict (.ofContext context subject none none) = { blocked := true } := by
    rw [neighborsVerdict, View.left_of_slotless hslots hs]
    rfl
  simp only [evaluate, verdict, hc, hv]
  cases c.invert <;> rfl

end

theorem slot_eq_of_map_slot {hand : List Die}
    (h : hand.map (·.slot) = (List.range hand.length).map Int.ofNat) {k : Nat} {d : Die}
    (hd : hand[k]? = some d) : d.slot = k := by
  have hk : k < hand.length := (List.getElem?_eq_some_iff.mp hd).1
  have hslot := congrArg (·[k]?) h
  simpa [List.getElem?_map, List.getElem?_range hk, hd] using hslot

theorem Subject.slot_ofLabel (l : Label) : (Subject.ofLabel l).slot = -1 := by
  cases l <;> rfl

namespace Affix

variable (a : Affix)

/-- Without an entity given, an affix has none that sits in a slot. -/
theorem slot_subject_none : (a.subject .none).slot = -1 := by
  change (if a.statName.isAbsent then Subject.none else .ofLabel a.statName).slot = -1
  split
  · rfl
  · exact Subject.slot_ofLabel a.statName

/-- Without an entity given, the verdict looks at the first die at most. -/
theorem verdictIn_congr {context other : Context}
    (hslots : ∀ (k : Nat) (d : Die), context.hand[k]? = some d → d.slot = k)
    (hother : ∀ (k : Nat) (d : Die), other.hand[k]? = some d → d.slot = k)
    (hscene : other.toScene = context.toScene) (hfirst : other.hand.head? = context.hand.head?) :
    a.verdictIn other .none = a.verdictIn context .none := by
  have hs := a.slot_subject_none
  unfold verdictIn Condition.evaluateIn
  cases a.condition? with
  | none => rfl
  | some c =>
    change c.evaluate (.ofContext other (a.subject .none) none none) =
      c.evaluate (.ofContext context (a.subject .none) none none)
    refine Condition.evaluate_of_neighbors hscene rfl ?_ ?_
    · rw [View.left_of_slotless hother hs, View.left_of_slotless hslots hs]
    · rw [View.right_of_slotless hother hs, View.right_of_slotless hslots hs, hfirst]

end Affix

theorem contributions_congr {context other : Context} {as : List Affix}
    (hscene : other.toScene = context.toScene)
    (h : ∀ a ∈ as, a.verdictIn other .none = a.verdictIn context .none) :
    contributions other as = contributions context as := by
  induction as with
  | nil => rfl
  | cons a as ih =>
    obtain ⟨ha, has⟩ := List.forall_mem_cons.mp h
    unfold contributions
    rw [ha, hscene, ih has]

/-- If the slots of a hand are the places of its dice, an entity without a slot has no left neighbor,
and the die in the first slot is its right one. So a gate on used neighbors blocks it unless inverted,
while a scale by qualifying neighbors counts the first die where that reaches the threshold and comes
to zero only where it does not. The same holds of what a pool aggregates without an entity: apart from
the first die, the dice in hand make no difference to it. -/
theorem slotless_subject_neighbors_first_die {context : Context}
    (hslots : ∀ (k : Nat) (d : Die), context.hand[k]? = some d → d.slot = k) :
    (∀ subject : Subject, subject.slot = -1 →
      let v := View.ofContext context subject none none
      v.neighbor? (-1) = none ∧ v.neighbor? 1 = context.hand.head? ∧
        (∀ c : Condition, c.kind = .neighborsUsed → c.evaluate v = .ok { blocked := !c.invert }) ∧
        ∀ c : Condition, c.kind = .perQualifyingNeighbor →
          c.evaluate v =
              (c.firstDieScale context.hand).map (fun x => { blocked := c.invert, multiplier := x }) ∧
            ((∃ r, c.evaluate v = .ok r ∧ r.multiplier = 0) ↔
              ∀ d ∈ context.hand.head?, ∃ x, toDouble d.value = .ok x ∧ ¬ c.threshold ≤ x)) ∧
      (∀ (a : Affix) (c : Condition), a.condition? = some c → c.kind = .perQualifyingNeighbor →
        a.verdictIn context .none =
          (c.firstDieScale context.hand).map fun x => { blocked := c.invert, multiplier := x }) ∧
      ∀ (other : Context) (as : List Affix),
        (∀ (k : Nat) (d : Die), other.hand[k]? = some d → d.slot = k) →
        other.toScene = context.toScene → other.hand.head? = context.hand.head? →
        contributions other as = contributions context as := by
  refine ⟨fun subject hs => ?_, fun a c ha hc => ?_, fun other as hother hscene hfirst => ?_⟩
  · refine ⟨View.left_of_slotless hslots hs, View.right_of_slotless hslots hs,
      fun c hc => Condition.evaluate_neighborsUsed_of_slotless hslots hs hc, fun c hc => ?_⟩
    have heq := Condition.evaluate_perQualifyingNeighbor_of_slotless hslots hs hc
    refine ⟨heq, ?_⟩
    rw [heq, ← c.firstDieScale_eq_zero_iff]
    cases c.firstDieScale context.hand <;> simp [Except.map]
  · rw [Affix.verdictIn, ha]
    exact Condition.evaluate_perQualifyingNeighbor_of_slotless hslots a.slot_subject_none hc
  · exact contributions_congr hscene fun a _ => a.verdictIn_congr hslots hother hscene hfirst

/-- A stat beside a hand whose first die misses the threshold; the others, which reach it, are no
neighbors, and without them the pool comes to the same. -/
theorem slotless_subject_neighbors_first_die_below_threshold :
    let hand : List Die := [{ slot := 0, value := 3, consumed := true }, { slot := 1, value := 6 }]
    let context : Context := { hand }
    let v : View := .ofContext context (.stat "strength") none none
    let c : Condition := { kind := .perQualifyingNeighbor, threshold := 4 }
    let a : Affix :=
      { name := "Crowd", statName := "strength", effect := { value := 2 }, condition? := some c }
    (∃ r, c.evaluate v = .ok r ∧ r.multiplier = 0) ∧
      ({ kind := .neighborsUsed } : Condition).evaluate v = .ok { blocked := true } ∧
      a.verdictIn context .none = .ok { multiplier := 0 } ∧
      contributions { hand := hand.take 1 } [a] = contributions context [a] := by
  intro hand context v c a
  have hslots (k : Nat) (d : Die) (hd : context.hand[k]? = some d) : d.slot = k :=
    slot_eq_of_map_slot (by decide) hd
  have hother (k : Nat) (d : Die) (hd : (hand.take 1)[k]? = some d) : d.slot = k :=
    slot_eq_of_map_slot (by decide) hd
  have hbelow : ∀ d ∈ context.hand.head?, ∃ x, toDouble d.value = .ok x ∧ ¬ c.threshold ≤ x := by
    rintro d ⟨⟩
    exact ⟨3, by decide +kernel, by decide +kernel⟩
  obtain ⟨hsubjects, hverdict, hpool⟩ := slotless_subject_neighbors_first_die hslots
  obtain ⟨-, -, hused, hqualifying⟩ := hsubjects (.stat "strength") rfl
  have hzero : c.firstDieScale context.hand = .ok 0 := (c.firstDieScale_eq_zero_iff _).mpr hbelow
  have hscale : a.verdictIn context .none = .ok { multiplier := 0 } := by
    rw [hverdict a c rfl rfl, hzero]
    rfl
  exact ⟨(hqualifying c rfl).2.mpr hbelow, hused _ rfl, hscale,
    hpool { hand := hand.take 1 } [a] hother rfl rfl⟩

/-- The first die scales a stat that sits in no slot. -/
theorem first_die_scales_slotless_subject :
    let context : Context := { hand := [{ slot := 0, value := 6 }] }
    let c : Condition := { kind := .perQualifyingNeighbor, threshold := 4 }
    let a : Affix :=
      { name := "Crowd", statName := "strength", effect := { value := 2 }, condition? := some c }
    (∀ (k : Nat) (d : Die), context.hand[k]? = some d → d.slot = k) ∧
      c.evaluate (.ofContext context (.stat "strength") none none) = .ok { multiplier := 1 } ∧
      (contributions context [a]).map total = .ok 2 := by
  intro context c a
  have hslots (k : Nat) (d : Die) (hd : context.hand[k]? = some d) : d.slot = k :=
    slot_eq_of_map_slot (by decide) hd
  exact ⟨hslots, by decide +kernel, by decide +kernel⟩

end AffixRules
