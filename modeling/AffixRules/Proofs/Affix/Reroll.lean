import AffixRules.Affix.Reroll
import AffixRules.Proofs.Number.Exact

/-! Rerolls that cannot fail. Of two whole bounds that are not reversed, truncation keeps the order,
and what is drawn between them can be read as a double as they can. -/
namespace AffixRules

namespace Generator

/-- Whole numbers are drawn between any two bounds that are not reversed. -/
def InBounds (σ : Type) [Generator σ] : Prop :=
  ∀ (low high : Int) (g : σ), low ≤ high →
    ∃ n, (between low high g).answer = .ok n ∧ low ≤ n ∧ n ≤ high

end Generator

/-- A generator that takes the numbers between two bounds in turn. -/
structure Turns where
  used : Nat := 0
  deriving DecidableEq, Inhabited

namespace Turns

def between (low high : Int) (t : Turns) : Outcome Turns Int :=
  if low ≤ high then .done (low + t.used % (high - low + 1)) { used := t.used + 1 }
  else .failed (.emptyRange low high) t

instance : Generator Turns where
  fraction t := (Float.ofNat (t.used % 4) / 4, { used := t.used + 1 })
  between := between

theorem inBounds : Generator.InBounds Turns := by
  intro low high t h
  have hpos : 0 < high - low + 1 := by omega
  have hlow := Int.emod_nonneg t.used (Int.ne_of_gt hpos)
  have hhigh := Int.emod_lt_of_pos t.used hpos
  refine ⟨low + t.used % (high - low + 1), ?_, by omega, by omega⟩
  change (between low high t).answer = _
  rw [between, if_pos h]
  rfl

end Turns

theorem exists_truncate_of_isWhole {x : Float} (h : isWhole x = true) :
    ∃ n, truncate x = .ok n := by
  rw [isWhole] at h
  rw [truncate]
  cases hp : Parts.ofFloat x with
  | notANumber => simp [hp] at h
  | infinite negative => simp [hp] at h
  | finite negative m e => exact ⟨_, rfl⟩

/-- Between what two doubles are truncated to, every whole number can be read as a double. -/
theorem exists_toDouble_of_between {low high : Float} {a b n : Int} (ha : truncate low = .ok a)
    (hb : truncate high = .ok b) (han : a ≤ n) (hnb : n ≤ b) : ∃ x, toDouble n = .ok x := by
  have hlow := natAbs_truncate ha
  have hhigh := natAbs_truncate hb
  exact toDouble_of_natAbs_le (by omega)

variable {σ : Type} [Generator σ]

/-- Between whole bounds a whole number is drawn that is read as a double. -/
theorem exists_rollBetween_of_whole (hσ : Generator.InBounds σ) {low high : Float}
    (hwhole : isWhole low = true ∧ isWhole high = true) (h : ¬ high < low) (g : σ) :
    ∃ a b n value g', truncate low = .ok a ∧ truncate high = .ok b ∧ a ≤ n ∧ n ≤ b ∧
      toDouble n = .ok value ∧ rollBetween low high g = .done value g' := by
  obtain ⟨a, ha⟩ := exists_truncate_of_isWhole hwhole.1
  obtain ⟨b, hb⟩ := exists_truncate_of_isWhole hwhole.2
  obtain ⟨n, hn, han, hnb⟩ := hσ a b g (truncate_mono h ha hb)
  obtain ⟨x, hx⟩ := exists_toDouble_of_between ha hb han hnb
  refine ⟨a, b, n, x, (Generator.between a b g).state, ha, hb, han, hnb, hx, ?_⟩
  rw [rollBetween, if_pos ((Bool.and_eq_true _ _).mpr hwhole)]
  simp only [ha, hb, Outcome.andThen, hn, Outcome.ofExcept, hx, Outcome.done]

theorem exists_rollBetween (hσ : Generator.InBounds σ) {low high : Float} (h : ¬ high < low)
    (g : σ) : ∃ value g', rollBetween low high g = .done value g' := by
  by_cases hwhole : (isWhole low && isWhole high) = true
  · obtain ⟨_, _, _, value, g', -, -, -, -, -, hroll⟩ :=
      exists_rollBetween_of_whole hσ ((Bool.and_eq_true _ _).mp hwhole) h g
    exact ⟨value, g', hroll⟩
  · rw [rollBetween, if_neg hwhole]
    exact ⟨_, _, rfl⟩

namespace Affix

variable {a : Affix}

theorem exists_rollValue (hσ : Generator.InBounds σ) (ha : a.rangeWarnings = []) (g : σ) :
    ∃ value g', a.rollValue g = .done value g' := by
  rw [rangeWarnings] at ha
  rw [rollValue]
  cases hr : a.range? with
  | none => exact ⟨_, _, rfl⟩
  | some range =>
    obtain ⟨low, high⟩ := range
    have hle : ¬ high < low := by simpa [hr] using ha
    exact exists_rollBetween hσ hle g

theorem exists_rerolled (hσ : Generator.InBounds σ) (ha : a.rangeWarnings = []) (g : σ) :
    ∃ value g', a.rerolled g = .done (a.withValue value) g' := by
  obtain ⟨value, g', hroll⟩ := exists_rollValue hσ ha g
  exact ⟨value, g', by rw [rerolled, hroll, Outcome.andThen_done]⟩

end Affix

end AffixRules
