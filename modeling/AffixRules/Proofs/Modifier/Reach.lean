import AffixRules.Proofs.Dispatch.FlatBonus
import AffixRules.Proofs.Modifier.Lifetime

/-! Which dice the modifiers that a dispatch creates act on. A modifier for single dice is bound to the
slot of one target; the others are made once, for the whole hand or for all but the source. -/
namespace AffixRules

namespace Outcome

variable {σ β γ : Type}

theorem forEach_map (f : β → γ) (step : γ → σ → Outcome σ Unit) (bs : List β) (s : σ) :
    forEach step (bs.map f) s = forEach (fun b => step (f b)) bs s := by
  induction bs generalizing s with
  | nil => rfl
  | cons b bs ih => simp only [List.map_cons, forEach, ih]

end Outcome

/-- What a template is bound to: each target where it is for single dice, else once to none. -/
def ModifierTemplate.bindings (t : ModifierTemplate) (targets : List DieId) : List (Option DieId) :=
  if t.filter = .single then targets.map some else [none]

namespace Firing

variable (f : Firing)

/-- The modifier of a template for a die or for the hand, with the magnitude that it has there. -/
def Makes (b : Board) (t : ModifierTemplate) (target? : Option DieId) (m : Modifier) : Prop :=
  ∃ value, f.magnitude b target? = .ok value ∧
    m = f.modifier b t value (target?.map fun i => (b.tray.get i).slot)

/-- The report of a modifier. -/
def creation (b : Board) (target? : Option DieId) (m : Modifier) : SpecialEffect :=
  f.special b .createCombatModifier (target?.map fun i => (b.tray.get i).slot) (.modifier m)

variable {f} {t : ModifierTemplate} {b c d : Board} {targets : List DieId}
  {bound : List (Option DieId)} {target? : Option DieId} {m : Modifier} {ms : List Modifier}

theorem apply_eq_forEach (hk : f.effect.kind = .createCombatModifier)
    (hp : f.effect.payload = .modifier t) :
    f.apply targets b = Outcome.forEach (f.emitModifier t) (t.bindings targets) b := by
  simp only [apply, hk, hp, ModifierTemplate.bindings]
  split
  · rw [Outcome.forEach_map]
  · simp only [Outcome.forEach]
    generalize f.emitModifier t none b = o
    obtain ⟨answer, c⟩ := o
    cases answer <;> rfl

theorem magnitude_congr (hb : c.tray = b.tray) : f.magnitude c target? = f.magnitude b target? := by
  rw [magnitude, magnitude, sourceDie, sourceDie, hb]

theorem emitModifier_of_makes (hb : c.tray = b.tray) (hm : f.Makes b t target? m) :
    f.emitModifier t target? c = .done () (c.reporting [f.creation b target? m]) := by
  obtain ⟨value, hvalue, rfl⟩ := hm
  rw [← magnitude_congr hb] at hvalue
  simp only [emitModifier, hvalue, creation, modifier, special, sourceDie, ← hb]
  rfl

theorem exists_makes_of_emitModifier (hb : c.tray = b.tray)
    (h : f.emitModifier t target? c = .done () d) : ∃ m, f.Makes b t target? m := by
  cases hm : f.magnitude b target? with
  | ok value => exact ⟨_, value, hm, rfl⟩
  | error e =>
    rw [← magnitude_congr hb] at hm
    rw [emitModifier, hm] at h
    cases h

theorem forEach_emitModifier (hb : c.tray = b.tray) (h : List.Forall₂ (f.Makes b t) bound ms) :
    Outcome.forEach (f.emitModifier t) bound c =
      .done () (c.reporting (List.zipWith (f.creation b) bound ms)) := by
  induction h generalizing c with
  | nil => simp [Outcome.forEach, Board.reporting]
  | @cons target? m bound ms hm hrest ih =>
    rw [Outcome.forEach, emitModifier_of_makes hb hm, Outcome.andThen_done,
      ih (c := c.reporting [f.creation b target? m]) hb, Board.reporting_reporting]
    rfl

theorem exists_makes_of_forEach (hb : c.tray = b.tray)
    (h : Outcome.forEach (f.emitModifier t) bound c = .done () d) :
    ∃ ms, List.Forall₂ (f.Makes b t) bound ms := by
  induction bound generalizing c with
  | nil => exact ⟨[], .nil⟩
  | cons target? bound ih =>
    obtain ⟨u, hstep, hrest⟩ := Outcome.exists_of_forEach_cons h
    obtain ⟨m, hm⟩ := exists_makes_of_emitModifier hb hstep
    rw [emitModifier_of_makes hb hm] at hstep
    cases hstep
    obtain ⟨ms, hms⟩ := ih (c := c.reporting [f.creation b target? m]) hb hrest
    exact ⟨m :: ms, .cons hm hms⟩

theorem exists_makes_iff :
    (∃ ms, List.Forall₂ (f.Makes b t) bound ms) ↔
      ∀ target? ∈ bound, ∃ value, f.magnitude b target? = .ok value := by
  induction bound with
  | nil => simp
  | cons target? bound ih =>
    rw [List.forall_mem_cons, ← ih]
    constructor
    · rintro ⟨_, hms⟩
      obtain ⟨m, ms, ⟨value, hvalue, -⟩, hrest, -⟩ := List.forall₂_cons_left_iff.mp hms
      exact ⟨⟨value, hvalue⟩, ms, hrest⟩
    · rintro ⟨⟨value, hvalue⟩, ms, hms⟩
      exact ⟨_ :: ms, .cons ⟨value, hvalue, rfl⟩ hms⟩

theorem modifiers_creations (h : List.Forall₂ (f.Makes b t) bound ms) :
    SpecialEffect.modifiers (List.zipWith (f.creation b) bound ms) = ms := by
  induction h with
  | nil => rfl
  | cons hm hrest ih =>
    rw [List.zipWith_cons_cons]
    exact congrArg (_ :: ·) ih

/-- A template that is not for single dice makes one modifier, whatever the targets are. -/
theorem makes_of_wide (hs : t.filter ≠ .single)
    (h : List.Forall₂ (f.Makes b t) (t.bindings targets) ms) : ∃ m, ms = [m] ∧ f.Makes b t none m := by
  rw [ModifierTemplate.bindings, if_neg hs] at h
  obtain ⟨m, _, hm, hnil, rfl⟩ := List.forall₂_cons_left_iff.mp h
  rw [List.forall₂_nil_left_iff.mp hnil]
  exact ⟨m, rfl, hm⟩

theorem map_target_of_makes {ms : List Modifier}
    (h : List.Forall₂ (fun i => f.Makes b t (some i)) targets ms) :
    ms.map (·.target) = targets.map fun i => .int (b.tray.get i).slot := by
  induction h with
  | nil => rfl
  | cons hm hrest ih =>
    obtain ⟨value, -, rfl⟩ := hm
    rw [List.map_cons, List.map_cons, ih]
    rfl

end Firing

namespace Modifiers

variable {f : Firing} {t : ModifierTemplate} {b : Board} {targets : List DieId} {ms : Modifiers}
  {m : Modifier} {slot : Int}

theorem inForce_cons (m : Modifier) (ms : Modifiers) (slot : Int) :
    inForce (m :: ms) slot = if !m.isExpired && m.appliesTo slot then m :: ms.inForce slot
      else ms.inForce slot :=
  List.filter_cons

/-- A modifier that is bound to a die is in force at its slot and nowhere else. -/
theorem bound_inForce (hs : t.filter = .single) (ht : ¬ (t.duration = .turns ∧ t.turns ≤ 0))
    {i : DieId} (hm : f.Makes b t (some i) m) (slot : Int) :
    (!m.isExpired && m.appliesTo slot) = decide ((b.tray.get i).slot = slot) := by
  obtain ⟨value, -, rfl⟩ := hm
  have hlasts : (f.modifier b t value (some (b.tray.get i).slot)).isExpired = false :=
    decide_eq_false ht
  rw [Option.map_some, hlasts]
  simp [Modifier.appliesTo, Firing.modifier, hs]

theorem inForce_of_no_target (hs : t.filter = .single)
    (ht : ¬ (t.duration = .turns ∧ t.turns ≤ 0))
    (hms : List.Forall₂ (fun i => f.Makes b t (some i)) targets ms)
    (hslot : slot ∉ targets.map fun i => (b.tray.get i).slot) : ms.inForce slot = [] := by
  induction hms with
  | nil => rfl
  | cons hm hrest ih =>
    obtain ⟨hne, hslot⟩ := not_or.mp (mt List.mem_cons.mpr hslot)
    rw [inForce_cons, bound_inForce hs ht hm, decide_eq_false (Ne.symm hne)]
    exact ih hslot

/-- Of modifiers for dice in different slots, one is in force at each of these. -/
theorem inForce_of_target (hs : t.filter = .single) (ht : ¬ (t.duration = .turns ∧ t.turns ≤ 0))
    (hms : List.Forall₂ (fun i => f.Makes b t (some i)) targets ms)
    (hslots : (targets.map fun i => (b.tray.get i).slot).Nodup) {i : DieId} (hi : i ∈ targets) :
    ∃ m, ms.inForce (b.tray.get i).slot = [m] ∧ f.Makes b t (some i) m := by
  induction hms with
  | nil => cases hi
  | @cons j m targets ms hm hrest ih =>
    obtain ⟨hj, hslots⟩ := List.nodup_cons.mp hslots
    obtain rfl | hi := List.mem_cons.mp hi
    · refine ⟨m, ?_, hm⟩
      rw [inForce_cons, bound_inForce hs ht hm, decide_eq_true rfl, if_pos rfl,
        inForce_of_no_target hs ht hrest hj]
    · have hne : (b.tray.get j).slot ≠ (b.tray.get i).slot := fun he =>
        hj (List.mem_map.mpr ⟨i, hi, he.symm⟩)
      rw [inForce_cons, bound_inForce hs ht hm, decide_eq_false hne]
      exact ih hslots hi

theorem inForce_of_all (ha : t.filter = .all) (ht : ¬ (t.duration = .turns ∧ t.turns ≤ 0))
    (hm : f.Makes b t none m) (slot : Int) : inForce [m] slot = [m] := by
  obtain ⟨value, -, rfl⟩ := hm
  have hlasts : (f.modifier b t value none).isExpired = false := decide_eq_false ht
  rw [inForce_cons, Option.map_none, hlasts]
  simp [Modifier.appliesTo, Firing.modifier, ha, inForce]

theorem inForce_of_allExceptSource (he : t.filter = .allExceptSource)
    (ht : ¬ (t.duration = .turns ∧ t.turns ≤ 0)) (hm : f.Makes b t none m) (slot : Int) :
    inForce [m] slot = if slot = (f.sourceDie b).slot then [] else [m] := by
  obtain ⟨value, -, rfl⟩ := hm
  have hlasts : (f.modifier b t value none).isExpired = false := decide_eq_false ht
  rw [inForce_cons, Option.map_none, hlasts]
  by_cases hslot : slot = (f.sourceDie b).slot <;>
    simp [Modifier.appliesTo, Firing.modifier, he, inForce, hslot]

end Modifiers

namespace Stage

variable {g : Stage} {source : DieId} {a : Affix} {b : Board} {v : Verdict}

/-- An affix of one effect that fires a modifier: the loop over its bindings, and then the note of the
name. -/
theorem applyAffix_of_open {t : ModifierTemplate} (hsubs : a.subEffects = [])
    (hk : a.effect.kind = .createCombatModifier) (hp : a.effect.payload = .modifier t)
    (hv : Condition.evaluate? a.condition? (g.view source b) = .ok v) (hopen : v.blocked = false) :
    g.applyAffix source a b =
      (Outcome.forEach ((⟨g.scene, source, a.name, a.effect, v⟩ : Firing).emitModifier t)
        (t.bindings (b.tray.targets g.hand source a.selector)) b).andThen fun _ =>
          Board.note a.name true := by
  obtain ⟨parent, rest, -, hrest, heq⟩ := (Fires.primary hv hopen).applyAffix_eq
  rw [hsubs, List.suffix_nil] at hrest
  subst hrest
  rw [← Firing.apply_eq_forEach (f := ⟨g.scene, source, a.name, a.effect, v⟩) hk hp]
  exact heq

section Makes

variable {f : Firing} {t : ModifierTemplate} {bound : List (Option DieId)} {ms : List Modifier}

theorem noted_of_makes (hms : List.Forall₂ (f.Makes b t) bound ms) :
    ((Outcome.forEach (f.emitModifier t) bound b).andThen fun _ => Board.note a.name true) =
      Board.note a.name true (b.reporting (List.zipWith (f.creation b) bound ms)) := by
  rw [Firing.forEach_emitModifier rfl hms, Outcome.andThen_done]

theorem exists_makes_of_noted
    (hok : ((Outcome.forEach (f.emitModifier t) bound b).andThen fun _ =>
      Board.note a.name true).answer = .ok ()) : ∃ ms, List.Forall₂ (f.Makes b t) bound ms := by
  obtain ⟨u, hu, -, -⟩ := Outcome.exists_of_andThen_ok hok
  exact Firing.exists_makes_of_forEach (d := (Outcome.forEach (f.emitModifier t) bound b).state) rfl
    (by rw [Outcome.done, ← hu])

end Makes

/-- Where the dice in hand stand in different slots, so do the targets. -/
theorem nodup_slots_targets (hslots : (g.hand.map fun i => (b.tray.get i).slot).Nodup)
    (hsource : source ∈ g.hand) (selector : TargetSelector) :
    ((b.tray.targets g.hand source selector).map fun i => (b.tray.get i).slot).Nodup := by
  refine List.Nodup.map_on (fun i hi j hj hij => ?_) (Tray.nodup_targets hslots.of_map source _)
  have hi : i ∈ g.hand := Tray.mem_hand_of_mem_targets hsource hi
  have hj : j ∈ g.hand := Tray.mem_hand_of_mem_targets hsource hj
  exact List.inj_on_of_nodup_map hslots hi hj hij

end Stage

/-- An affix without sub-effects that fires a modifier completes exactly if the magnitude resolves for
each die that the modifier is bound to. It then reports one modifier for each target, in their order,
or one for the hand; and of these, a fresh set of modifiers has in force: for single dice, the one
that was bound to it at each target's slot and none elsewhere; else the one modifier, at every slot or
at every slot but the source's, whatever the targets are. -/
theorem modifiers_reach_targets {g : Stage} {source : DieId} {a : Affix} {b : Board}
    {t : ModifierTemplate} {v : Verdict} (hsubs : a.subEffects = [])
    (hk : a.effect.kind = .createCombatModifier) (hp : a.effect.payload = .modifier t)
    (ht : ¬ (t.duration = .turns ∧ t.turns ≤ 0))
    (hslots : (g.hand.map fun i => (b.tray.get i).slot).Nodup) (hsource : source ∈ g.hand)
    (hv : Condition.evaluate? a.condition? (g.view source b) = .ok v) (hopen : v.blocked = false) :
    let f : Firing := ⟨g.scene, source, a.name, a.effect, v⟩
    let targets := b.tray.targets g.hand source a.selector
    let slot i := (b.tray.get i).slot
    let o := g.applyAffix source a b
    (o.answer = .ok () ↔
      ∀ target? ∈ t.bindings targets, ∃ value, f.magnitude b target? = .ok value) ∧
      (o.answer = .ok () → ∃ es, o.state.tray = b.tray ∧
        o.state.report = { b.report with special := b.report.special ++ es
                                         fired := b.report.fired ++ [a.name] } ∧
        let ms := Modifiers.after [.addFrom es]
        es = List.zipWith (f.creation b) (t.bindings targets) ms ∧
          List.Forall₂ (f.Makes b t) (t.bindings targets) ms ∧
          (t.filter = .single →
            ms.map (·.target) = targets.map (fun i => .int (slot i)) ∧
              (∀ i ∈ targets, ∃ m, ms.inForce (slot i) = [m] ∧ f.Makes b t (some i) m) ∧
              ∀ s, s ∉ targets.map slot → ms.inForce s = []) ∧
          (t.filter = .all → ∃ m, ms = [m] ∧ ∀ s, ms.inForce s = [m]) ∧
          (t.filter = .allExceptSource → ∃ m, ms = [m] ∧
            ∀ s, ms.inForce s = if s = slot source then [] else [m])) := by
  intro f targets slot o
  have ho : o = (Outcome.forEach (f.emitModifier t) (t.bindings targets) b).andThen fun _ =>
      Board.note a.name true := Stage.applyAffix_of_open hsubs hk hp hv hopen
  rw [ho]
  refine ⟨⟨fun hok => Firing.exists_makes_iff.mp (Stage.exists_makes_of_noted hok), fun hall => ?_⟩,
    fun hok => ?_⟩
  · obtain ⟨ms, hms⟩ := Firing.exists_makes_iff.mpr hall
    rw [Stage.noted_of_makes hms]
    rfl
  · obtain ⟨ms, hms⟩ := Stage.exists_makes_of_noted hok
    rw [Stage.noted_of_makes hms]
    refine ⟨List.zipWith (f.creation b) (t.bindings targets) ms, rfl, rfl, ?_⟩
    have hafter : Modifiers.after
        [.addFrom (List.zipWith (f.creation b) (t.bindings targets) ms)] = ms :=
      Firing.modifiers_creations hms
    rw [hafter]
    refine ⟨rfl, hms, fun hs => ?_, fun hs => ?_, fun hs => ?_⟩
    · rw [ModifierTemplate.bindings, if_pos hs, List.forall₂_map_left_iff] at hms
      have hdistinct : (targets.map slot).Nodup := Stage.nodup_slots_targets hslots hsource _
      exact ⟨Firing.map_target_of_makes hms,
        fun i hi => Modifiers.inForce_of_target hs ht hms hdistinct hi,
        fun s hslot => Modifiers.inForce_of_no_target hs ht hms hslot⟩
    · obtain ⟨m, rfl, hm⟩ := Firing.makes_of_wide (by simp [hs]) hms
      exact ⟨m, rfl, Modifiers.inForce_of_all hs ht hm⟩
    · obtain ⟨m, rfl, hm⟩ := Firing.makes_of_wide (by simp [hs]) hms
      exact ⟨m, rfl, Modifiers.inForce_of_allExceptSource hs ht hm⟩

/-- A modifier for each neighbor, worth half of that neighbor's value, and the template for all but the
source, with no neighbor left. -/
theorem modifiers_reach_targets_of_neighbors :
    let template (filter : TargetFilter) : ModifierTemplate :=
      { duration := .turns, turns := 1, filter }
    let oath : Affix :=
      { name := "Oath", selector := .neighbors
        effect := { kind := .createCombatModifier, value := 0.5, source := .neighborPercent
                    payload := .modifier (template .single) } }
    let call : Affix :=
      { name := "Call", selector := .neighbors
        effect := { kind := .createCombatModifier, value := 1
                    payload := .modifier (template .allExceptSource) } }
    let t (used : Bool) : Tray :=
      { cells := [(0, { slot := 0, value := 4, consumed := used }), (1, { slot := 1, value := 3 }),
          (2, { slot := 2, value := 6, consumed := used })]
        next := 3 }
    let g : Stage := { scene := {}, hand := [0, 1, 2] }
    let bound := g.applyAffix 1 oath { tray := t false }
    let free := g.applyAffix 1 call { tray := t true }
    let ms := Modifiers.after [.addFrom bound.state.report.special]
    bound.answer = .ok () ∧ ms.map (·.target) = [.int 0, .int 2] ∧
      (∃ m, ms.inForce 0 = [m] ∧ m.value = 2) ∧ (∃ m, ms.inForce 2 = [m] ∧ m.value = 3) ∧
      ms.inForce 1 = [] ∧ (t true).targets g.hand 1 .neighbors = [] ∧ free.answer = .ok () ∧
      ∃ m, Modifiers.after [.addFrom free.state.report.special] = [m] ∧ m.value = 1 ∧
        Modifiers.inForce [m] 1 = [] ∧ Modifiers.inForce [m] 7 = [m] := by
  intro template oath call t g bound free ms
  have hbound : bound.answer = .ok () := by decide +kernel
  have hfree : free.answer = .ok () := by decide +kernel
  have hone : 1 ∈ g.hand := by decide
  obtain ⟨-, hsingle⟩ := modifiers_reach_targets (a := oath) (b := { tray := t false })
    (t := template .single) rfl rfl rfl (by decide) (by decide) hone rfl rfl
  obtain ⟨-, hwide⟩ := modifiers_reach_targets (a := call) (b := { tray := t true })
    (t := template .allExceptSource) rfl rfl rfl (by decide) (by decide) hone rfl rfl
  obtain ⟨es, -, hreport, -, -, hreach, -, -⟩ := hsingle hbound
  obtain ⟨fs, -, hreport', -, hmade, -, -, hothers⟩ := hwide hfree
  have hes : bound.state.report.special = es := congrArg Report.special hreport
  have hfs : free.state.report.special = fs := congrArg Report.special hreport'
  obtain ⟨htargets, hhit, hmiss⟩ := hreach rfl
  obtain ⟨m, hm, hforce⟩ := hothers rfl
  have worth {f : Firing} {b : Board} {t : ModifierTemplate} {target? : Option DieId}
      {m : Modifier} {x : Float} (hmade : f.Makes b t target? m)
      (hx : f.magnitude b target? = .ok x) : m.value = x := by
    obtain ⟨value, hvalue, rfl⟩ := hmade
    exact Except.ok.inj (hvalue.symm.trans hx)
  have hms : ms = Modifiers.after [.addFrom es] := by rw [← hes]
  rw [hms, hfs]
  obtain ⟨left, hleft, hmadeLeft⟩ := hhit 0 (by decide)
  obtain ⟨right, hright, hmadeRight⟩ := hhit 2 (by decide)
  rw [hm] at hmade hforce
  obtain ⟨_, _, hmadeWide, -, heq⟩ := List.forall₂_cons_left_iff.mp hmade
  obtain ⟨rfl, -⟩ := List.cons.inj heq
  exact ⟨hbound, htargets, ⟨left, hleft, worth hmadeLeft (by decide +kernel)⟩,
    ⟨right, hright, worth hmadeRight (by decide +kernel)⟩, hmiss 1 (by decide), by decide, hfree,
    m, hm, worth hmadeWide (by decide +kernel), hforce 1, hforce 7⟩

/-- A die whose value is beyond the doubles has no share, so that a modifier that fires on it is not
created. -/
theorem open_gate_creates_no_modifier :
    let echo : Affix :=
      { name := "Echo"
        effect := { kind := .createCombatModifier, source := .selfValueFraction
                    payload := .modifier { filter := .single } } }
    let t : Tray := { cells := [(0, { slot := 0, value := 10 ^ 309 })], next := 1 }
    let g : Stage := { scene := {}, hand := [0] }
    let o := g.applyAffix 0 echo { tray := t }
    g.Fires 0 echo { tray := t } echo.effect .passed [0] { tray := t } ∧
      o.answer = .error .tooLarge ∧ SpecialEffect.modifiers o.state.report.special = [] ∧
      (Modifiers.after [.addFrom o.state.report.special]).inForce 0 = [] := by
  intro echo t g o
  exact ⟨.primary rfl rfl, by decide +kernel, by decide +kernel, by decide +kernel⟩

end AffixRules
