import AffixRules.Proofs.Condition.Fallback
import Mathlib.Algebra.Ring.Int.Defs
import Mathlib.Control.Monad.Basic

/-! Gates without an answer. Where the quantity of a gate cannot be resolved the gate opens, and
inversion, which comes after, shuts it. -/
namespace AffixRules

theorem toDouble_of_not_hasDouble {n : Int} (h : ¬ HasDouble n) :
    toDouble n = .error .tooLarge := by
  cases hx : (Float.ofInt n).isInf with
  | true => exact if_pos hx
  | false => exact absurd ⟨Float.ofInt n, if_neg (by simp [hx])⟩ h

theorem Subject.value_of_not_ordinary {s : Subject} (h : ¬ s.Ordinary) (player? : Option Player) :
    s.value player? = .error .tooLarge := by
  cases s with
  | die d => exact congrArg (Except.map some) (toDouble_of_not_hasDouble h)
  | whole n => exact congrArg (Except.map some) (toDouble_of_not_hasDouble h)
  | _ => exact absurd trivial h

namespace Condition

/-- The gate asks about something that the content does not name or that the scene or the subject
does not have. -/
inductive Unanswerable (c : Condition) (v : View) : Prop where
  | statMissing (kind : c.kind = .statAbove) (missing : c.parameter? "stat" = none)
  | statUnknown (name : Label) (kind : c.kind = .statAbove)
      (named : c.parameter? "stat" = some name)
      (unknown : v.scene.player.statNamed name = .ok none)
  | classMissing (kind : c.kind = .classIs) (missing : c.parameter? "class_name" = none)
  | tagMissing (kind : c.kind = .hasTag) (missing : c.parameter? "tag" = none)
  | noValue
      (kind : c.kind = .selfValueAbove ∨ c.kind = .selfValueBelow ∨ c.kind = .selfValueIsMin ∨
        c.kind = .selfValueIsMax ∨ c.kind = .selfValueBelowHalfMax)
      (missing : v.selfValue = .ok none)
  | noMaximum (kind : c.kind = .selfValueIsMax ∨ c.kind = .selfValueBelowHalfMax)
      (missing : v.subject.maximum? = none)
  | noHealth (kind : c.kind = .healthAbovePercent ∨ c.kind = .healthBelowPercent)
      (maximum : v.scene.player.maxHealth ≤ 0)

variable {c : Condition} {v : View}

theorem Unanswerable.unresolved (h : c.Unanswerable v) : c.Unresolved v := by
  unfold Unresolved
  cases h with
  | statMissing kind missing => simp [kind, statValue, missing]
  | statUnknown name kind named unknown => simp [kind, statValue, named, unknown]
  | classMissing kind missing => simpa [kind] using missing
  | tagMissing kind missing => simpa [kind] using missing
  | noValue kind missing => obtain h | h | h | h | h := kind <;> simp [h, missing]
  | noMaximum kind missing => obtain h | h := kind <;> simp [h, missing]
  | noHealth kind maximum => obtain h | h := kind <;> simpa [h] using maximum

theorem Unanswerable.not_scaling (h : c.Unanswerable v) : c.kind.isScaling = false := by
  cases h with
  | statMissing kind | statUnknown _ kind | classMissing kind | tagMissing kind => rw [kind]; rfl
  | noValue kind => obtain h | h | h | h | h := kind <;> rw [h] <;> rfl
  | noMaximum kind | noHealth kind => obtain h | h := kind <;> rw [h] <;> rfl

theorem evaluate_of_unanswerable (h : c.Unanswerable v)
    (hs : c.kind.readsMaximum = true → v.subject.Ordinary) :
    c.evaluate v = .ok { blocked := c.invert, multiplier := 1 } := by
  rw [evaluate, verdict_of_unresolved hs h.unresolved, fallback, h.not_scaling]
  cases c.invert <;> rfl

theorem evaluate_of_not_ordinary (hk : c.kind.readsMaximum = true) (hs : ¬ v.subject.Ordinary) :
    c.evaluate v = .error .tooLarge := by
  have hvalue : v.selfValue = .error .tooLarge := Subject.value_of_not_ordinary hs _
  cases hkind : c.kind with
  | selfValueIsMax | selfValueBelowHalfMax =>
    simp only [evaluate, verdict, hkind, maximumVerdict, hvalue]
    rfl
  | _ => simp [hkind, ConditionKind.readsMaximum] at hk

/-- The gate of an unanswerable condition is open, and an inverted one is shut; either way the value
is not scaled. There is no verdict only where a number beyond the doubles is to be held against a
maximum that it does not have. -/
theorem unanswerable_gate_opens_unless_inverted (h : c.Unanswerable v) :
    ((c.kind.readsMaximum = true → v.subject.Ordinary) →
      (c.invert = false → c.evaluate v = .ok { blocked := false, multiplier := 1 }) ∧
      (c.invert = true → c.evaluate v = .ok { blocked := true, multiplier := 1 })) ∧
    (c.kind.readsMaximum = true → ¬ v.subject.Ordinary → c.evaluate v = .error .tooLarge) := by
  refine ⟨fun hs => ⟨fun hi => ?_, fun hi => ?_⟩, evaluate_of_not_ordinary⟩
  · rw [evaluate_of_unanswerable h hs, hi]
  · rw [evaluate_of_unanswerable h hs, hi]

/-- A number has no maximum to reach, whether it is one that a die could show or one beyond the
doubles. -/
theorem unanswerable_gate_opens_for_number :
    let c : Condition := { kind := .selfValueIsMax }
    let v (n : Int) : View := .ofContext {} (.whole n) none none
    c.Unanswerable (v 6) ∧ c.evaluate (v 6) = .ok .passed ∧
      ({ c with invert := true } : Condition).evaluate (v 6) = .ok { blocked := true } ∧
      c.Unanswerable (v (10 ^ 309)) ∧ c.evaluate (v (10 ^ 309)) = .error .tooLarge := by
  intro c v
  have h (n : Int) : c.Unanswerable (v n) := .noMaximum (.inl rfl) rfl
  have hinverted : ({ c with invert := true } : Condition).Unanswerable (v 6) :=
    .noMaximum (.inl rfl) rfl
  have hbeyond : toDouble (10 ^ 309) = .error .tooLarge := by decide +kernel
  have hsix : (v 6).subject.Ordinary := ⟨6, by decide +kernel⟩
  refine ⟨h 6, ((unanswerable_gate_opens_unless_inverted (h 6)).1 fun _ => hsix).1 rfl,
    ((unanswerable_gate_opens_unless_inverted hinverted).1 fun _ => hsix).2 rfl, h _, ?_⟩
  refine (unanswerable_gate_opens_unless_inverted (h _)).2 rfl ?_
  rintro ⟨x, hx⟩
  cases hbeyond.symm.trans hx

/-- Inverted, a gate on a stat that the player does not have is shut for good. And a number beyond
the doubles fails before its maximum is missed. -/
theorem inverted_gate_on_unknown_stat_blocks :
    let c : Condition :=
      { kind := .statAbove, threshold := 1, invert := true, parameters := [("stat", "luck")] }
    let v : View := .ofContext {} .none none none
    let isMax : Condition := { kind := .selfValueIsMax }
    let beyond : View := .ofContext {} (.whole (10 ^ 309)) none none
    (c.Unanswerable v ∧ c.evaluate v = .ok { blocked := true, multiplier := 1 } ∧
      ({ c with invert := false } : Condition).evaluate v = .ok .passed) ∧
    isMax.Unanswerable beyond ∧ isMax.evaluate beyond = .error .tooLarge := by
  intro c v isMax beyond
  have hstat : c.Unanswerable v := .statUnknown (.text "luck") rfl rfl rfl
  have hmaximum : isMax.Unanswerable beyond := .noMaximum (.inl rfl) rfl
  refine ⟨⟨hstat, ?_, ?_⟩, hmaximum, ?_⟩ <;> decide +kernel

end Condition

end AffixRules
