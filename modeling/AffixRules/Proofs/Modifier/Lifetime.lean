import AffixRules.Dispatch.Report
import AffixRules.Modifier.Active
import Mathlib.Data.List.Induction

/-! How long combat modifiers last. A run is told twice: by what each step does to the active
modifiers, and by what was added when. The two agree after every run. -/
namespace AffixRules

namespace Modifiers

inductive Step where
  | add (m : Modifier)
  | addFrom (es : List SpecialEffect)
  | tick
  | endCombat
  deriving DecidableEq

/-- What a step tells its caller. -/
inductive Answer where
  | added (ms : List Modifier)
  | expired (ms : List Modifier)
  | dropped (count : Nat)
  deriving DecidableEq

namespace Step

/-- The modifiers that a step adds. -/
def adds : Step → List Modifier
  | .add m => [m]
  | .addFrom es => SpecialEffect.modifiers es
  | _ => []

def play (s : Step) (ms : Modifiers) : Answer × Modifiers :=
  match s with
  | .tick => (.expired ms.tick.1, ms.tick.2)
  | .endCombat => (.dropped ms.length, [])
  | s => (.added s.adds, ms ++ s.adds)

end Step

def after (steps : List Step) : Modifiers := steps.foldl (fun ms s => (s.play ms).2) []

@[simp] theorem after_append (steps : List Step) (s : Step) :
    after (steps ++ [s]) = (s.play (after steps)).2 := by
  simp [after]

/-- A modifier as it was added, the turns that have ended since, and whether the combat has. -/
structure Addition where
  modifier : Modifier
  turns : Nat := 0
  ended : Bool := false
  deriving DecidableEq

/-- What a run adds, in order, as it stands when the run is done. -/
def additions : List Step → List Addition
  | [] => []
  | s :: rest =>
    s.adds.map (fun m => ⟨m, rest.count .tick, decide (.endCombat ∈ rest)⟩) ++ additions rest

namespace Addition

/-- Whether the modifier is among the active ones. One that is added without turns left stays until
the turn ends. -/
def lasts (a : Addition) : Bool :=
  !a.ended && (a.modifier.duration = .combat || (a.turns : Int) < max 1 a.modifier.turnsLeft)

/-- Whether the turn that ended last was the last one of the modifier. -/
def ends (a : Addition) : Bool :=
  !a.ended && (a.modifier.duration = .turns && (a.turns : Int) = max 1 a.modifier.turnsLeft)

def inForceAt (slot : Int) (a : Addition) : Bool :=
  !a.ended && (a.modifier.duration = .combat || (a.turns : Int) < a.modifier.turnsLeft) &&
    a.modifier.appliesTo slot

/-- The modifier with the turns that are left of it. -/
def now (a : Addition) : Modifier :=
  if a.modifier.duration = .turns ∧ 0 < a.modifier.turnsLeft then
    { a.modifier with turnsLeft := a.modifier.turnsLeft - a.turns }
  else a.modifier

def followedBy (s : Step) (a : Addition) : Addition :=
  match s with
  | .tick => { a with turns := a.turns + 1 }
  | .endCombat => { a with ended := true }
  | _ => a

end Addition

theorem additions_append (steps : List Step) (s : Step) :
    additions (steps ++ [s]) =
      (additions steps).map (.followedBy s) ++ s.adds.map fun m => { modifier := m } := by
  induction steps with
  | nil => simp [additions]
  | cons t steps ih =>
    have hseen (m : Modifier) :
        (⟨m, (steps ++ [s]).count .tick, decide (.endCombat ∈ steps ++ [s])⟩ : Addition) =
          Addition.followedBy s ⟨m, steps.count .tick, decide (.endCombat ∈ steps)⟩ := by
      cases s <;> simp [Addition.followedBy]
    rw [List.cons_append, additions, additions, ih]
    simp only [hseen, List.map_append, List.map_map, Function.comp_def, List.append_assoc]

namespace Addition

variable {a : Addition}

@[simp] theorem lasts_fresh (m : Modifier) : ({ modifier := m } : Addition).lasts = true := by
  have hstay : 0 < max 1 m.turnsLeft := by omega
  simp [lasts, hstay]

@[simp] theorem now_fresh (m : Modifier) : ({ modifier := m } : Addition).now = m := by
  simp [now]

theorem appliesTo_now (a : Addition) (slot : Int) :
    a.now.appliesTo slot = a.modifier.appliesTo slot := by
  unfold now
  split <;> rfl

/-- A modifier stays for the combat, or for the turns it was added with, or, without any, till the
end of the turn it was added in. -/
theorem lasts_iff : a.lasts = true ↔ a.ended = false ∧
    (a.modifier.duration = .combat ∨ a.modifier.duration = .turns ∧
      ((a.turns : Int) < a.modifier.turnsLeft ∨ a.modifier.turnsLeft ≤ 0 ∧ a.turns = 0)) := by
  cases hd : a.modifier.duration with
  | combat => simp [lasts, hd]
  | turns =>
    have hstay : (a.turns : Int) < max 1 a.modifier.turnsLeft ↔
        (a.turns : Int) < a.modifier.turnsLeft ∨ a.modifier.turnsLeft ≤ 0 ∧ a.turns = 0 := by
      omega
    simp [lasts, hd, ← hstay]

theorem inForceAt_eq (slot : Int) (a : Addition) :
    a.inForceAt slot = ((!a.now.isExpired && a.now.appliesTo slot) && a.lasts) := by
  rw [appliesTo_now, Bool.eq_iff_iff]
  cases hended : a.ended <;> cases hd : a.modifier.duration <;>
    by_cases hn : 0 < a.modifier.turnsLeft <;>
    simp [inForceAt, lasts, now, Modifier.isExpired, hended, hd, hn] <;> omega

theorem ticked_now (h : a.lasts = true) : a.now.ticked = (a.followedBy .tick).now := by
  obtain ⟨hended, hd | ⟨hd, hn | ⟨hn, hk⟩⟩⟩ := lasts_iff.mp h
  · simp [now, followedBy, Modifier.ticked, hd]
  · have hpos : 0 < a.modifier.turnsLeft := by omega
    simp [now, followedBy, Modifier.ticked, hd, hn, hpos, Int.sub_sub]
  · simp [now, followedBy, Modifier.ticked, Int.not_lt.mpr hn]

/-- A tick returns what it finds expired, and the rest remains. -/
theorem ends_followedBy_tick (a : Addition) :
    (a.followedBy .tick).ends = ((a.followedBy .tick).now.isExpired && a.lasts) := by
  rw [Bool.eq_iff_iff]
  cases hended : a.ended <;> cases hd : a.modifier.duration <;>
    by_cases hn : 0 < a.modifier.turnsLeft <;>
    simp [ends, lasts, now, followedBy, Modifier.isExpired, hended, hd, hn] <;> omega

theorem lasts_followedBy_tick (a : Addition) :
    (a.followedBy .tick).lasts = (!(a.followedBy .tick).now.isExpired && a.lasts) := by
  rw [Bool.eq_iff_iff]
  cases hended : a.ended <;> cases hd : a.modifier.duration <;>
    by_cases hn : 0 < a.modifier.turnsLeft <;>
    simp [lasts, now, followedBy, Modifier.isExpired, hended, hd, hn] <;> omega

/-- What has left the active modifiers does not come back. -/
theorem lasts_of_followedBy {s : Step} (h : (a.followedBy s).lasts = true) : a.lasts = true := by
  cases s with
  | tick =>
    rw [lasts_followedBy_tick, Bool.and_eq_true] at h
    exact h.2
  | endCombat => simp [lasts, followedBy] at h
  | _ => exact h

/-- A modifier leaves by the tick that returns it, or by the end of the combat. -/
theorem leaves_iff (s : Step) : a.lasts = true ∧ (a.followedBy s).lasts = false ↔
    s = .tick ∧ (a.followedBy s).ends = true ∨ s = .endCombat ∧ a.lasts = true := by
  cases s with
  | tick =>
    rw [lasts_followedBy_tick, ends_followedBy_tick]
    cases a.lasts <;> simp
  | endCombat => simp [lasts, followedBy]
  | _ => simp [followedBy]

/-- How long a modifier stays and when it is in force, by what it was added with. -/
structure KeepsTime (a : Addition) : Prop where
  stays_away : ∀ s, (a.followedBy s).lasts = true → a.lasts = true
  leaves : ∀ s, a.lasts = true ∧ (a.followedBy s).lasts = false ↔
    s = .tick ∧ (a.followedBy s).ends = true ∨ s = .endCombat ∧ a.lasts = true
  of_combat : a.modifier.duration = .combat →
    a.ends = false ∧ a.lasts = !a.ended ∧ a.now = a.modifier
  in_force : a.modifier.duration = .turns → (a.turns : Int) < a.modifier.turnsLeft →
    a.ended = false → a.now = { a.modifier with turnsLeft := a.modifier.turnsLeft - a.turns } ∧
      ∀ slot, a.inForceAt slot = a.modifier.appliesTo slot
  last_turn : a.modifier.duration = .turns → 0 < a.modifier.turnsLeft →
    (a.ends = true ↔ a.ended = false ∧ (a.turns : Int) = a.modifier.turnsLeft)
  without_turns : a.modifier.duration = .turns → a.modifier.turnsLeft ≤ 0 →
    (∀ slot, a.inForceAt slot = false) ∧ (a.ends = true ↔ a.ended = false ∧ a.turns = 1)

theorem keepsTime (a : Addition) : a.KeepsTime where
  stays_away _ := lasts_of_followedBy
  leaves := leaves_iff
  of_combat hd := by simp [ends, lasts, now, hd]
  in_force hd hn hended := by
    have hpos : 0 < a.modifier.turnsLeft := by omega
    simp [now, inForceAt, hd, hpos, hended, hn]
  last_turn hd hn := by
    have hmax : max 1 a.modifier.turnsLeft = a.modifier.turnsLeft := by omega
    simp [ends, hd, hmax]
  without_turns hd hn := by
    have hmax : max 1 a.modifier.turnsLeft = 1 := by omega
    have hforce : ¬ (a.turns : Int) < a.modifier.turnsLeft := by omega
    have hone : (a.turns : Int) = 1 ↔ a.turns = 1 := by omega
    simp [ends, inForceAt, hd, hmax, hforce, hone]

end Addition

open Addition

/-- Those of the modifiers added that are still active. -/
def remaining (log : List Addition) : Modifiers := (log.filter lasts).map now

theorem remaining_fresh (ms : List Modifier) :
    remaining (ms.map fun m => { modifier := m }) = ms := by
  induction ms with
  | nil => rfl
  | cons m ms ih => simpa [remaining] using ih

theorem filter_ticked_remaining (log : List Addition) {p : Modifier → Bool} {q : Addition → Bool}
    (h : ∀ a : Addition, q (a.followedBy .tick) = (p (a.followedBy .tick).now && a.lasts)) :
    ((remaining log).map Modifier.ticked).filter p =
      ((log.map (followedBy .tick)).filter q).map now := by
  have hticked : (remaining log).map Modifier.ticked =
      (log.filter lasts).map fun a => (a.followedBy .tick).now := by
    unfold remaining
    rw [List.map_map]
    exact List.map_congr_left fun a ha => ticked_now (List.mem_filter.mp ha).2
  rw [hticked, List.filter_map, List.filter_filter, List.filter_map, List.map_map]
  exact congrArg _ (List.filter_congr fun a _ => (h a).symm)

theorem tick_remaining (log : List Addition) :
    (remaining log).tick =
      (((log.map (followedBy .tick)).filter ends).map now, remaining (log.map (followedBy .tick))) := by
  unfold tick
  rw [List.partition_eq_filter_filter]
  exact congrArg₂ Prod.mk (filter_ticked_remaining log ends_followedBy_tick)
    (filter_ticked_remaining log lasts_followedBy_tick)

theorem after_eq_remaining (steps : List Step) : after steps = remaining (additions steps) := by
  have hadds (log : List Addition) (ms : List Modifier) :
      remaining (log ++ ms.map fun m => { modifier := m }) = remaining log ++ ms := by
    rw [← congrArg (remaining log ++ ·) (remaining_fresh ms)]
    simp only [remaining, List.filter_append, List.map_append]
  induction steps using List.reverseRecOn with
  | nil => rfl
  | append_singleton steps s ih =>
    rw [after_append, additions_append, hadds, ih]
    cases s with
    | tick => simp [Step.play, tick_remaining, Step.adds]
    | endCombat => simp [Step.play, Step.adds, remaining, lasts, followedBy]
    | _ =>
      refine congrArg (remaining · ++ _) ?_
      exact (List.map_id _).symm

theorem inForce_remaining (log : List Addition) (slot : Int) :
    (remaining log).inForce slot = (log.filter (inForceAt slot)).map now := by
  unfold inForce remaining
  rw [List.filter_map, List.filter_filter]
  exact congrArg _ (List.filter_congr fun a _ => (inForceAt_eq slot a).symm)

/-- After every run the active modifiers are those of the added ones that last, in the order in which
they were added; the same goes for those in force at a slot and for those that a tick returns. Each
leaves once, by the tick that ends its last turn or by the end of the combat, or is still there. -/
theorem modifiers_last_their_turns (steps : List Step) :
    after steps = ((additions steps).filter lasts).map now ∧
      (∀ slot, (after steps).inForce slot =
        ((additions steps).filter (inForceAt slot)).map now) ∧
      (Step.tick.play (after steps)).1 =
        .expired (((additions (steps ++ [.tick])).filter ends).map now) ∧
      Step.endCombat.play (after steps) = (.dropped (after steps).length, []) ∧
      (∀ s, additions (steps ++ [s]) =
        (additions steps).map (followedBy s) ++ s.adds.map fun m => { modifier := m }) ∧
      ∀ a ∈ additions steps, a.KeepsTime := by
  refine ⟨after_eq_remaining steps, fun slot => ?_, ?_, rfl, additions_append steps,
    fun a _ => a.keepsTime⟩
  · rw [after_eq_remaining, inForce_remaining]
  · rw [after_eq_remaining, additions_append]
    simp [Step.play, tick_remaining, Step.adds]

/-- Two turns with a modifier for two, one without turns, and one for the combat. -/
theorem modifiers_last_their_turns_side_by_side :
    let rally : Modifier := { duration := .turns, turnsLeft := 2, sourceName := "Rally" }
    let flash : Modifier := { duration := .turns, sourceName := "Flash" }
    let ward : Modifier := { sourceName := "Ward" }
    let effects : List SpecialEffect :=
      [{ kind := .leechHeal }, { kind := .createCombatModifier, data := .modifier flash }]
    let steps : List Step := [.add rally, .addFrom effects, .tick, .add ward]
    after steps = [{ rally with turnsLeft := 1 }, ward] ∧
      (after steps).inForce 0 = [{ rally with turnsLeft := 1 }, ward] ∧
      (Step.tick.play (after steps)).1 = .expired [{ rally with turnsLeft := 0 }] ∧
      (additions steps).map (·.turns) = [1, 1, 0] ∧ ∀ a ∈ additions steps, a.KeepsTime := by
  intro rally flash ward effects steps
  obtain ⟨hafter, hforce, htick, -, -, hkeeps⟩ := modifiers_last_their_turns steps
  exact ⟨hafter.trans (by decide +kernel), (hforce 0).trans (by decide +kernel),
    htick.trans (by decide +kernel), by decide +kernel, hkeeps⟩

end Modifiers

end AffixRules
