import AffixRules.Proofs.Dispatch.Completion
import Mathlib.Data.List.Forall2

/-! What validated effects deliver. Without warnings a payload has the form that its effect expects,
so that an effect which is applied leaves its tag or element on every target, or reports its
payload: no effect falls back for want of one. -/
namespace AffixRules

/-- The payloads of a form. -/
def PayloadForm.Holds : PayloadForm → Payload → Prop
  | nothing, p => p = .nothing
  | tag, p => ∃ tag, p = .tag tag
  | element, p => ∃ element, p = .element element
  | randomize, p => ∃ pool, p = .randomize pool
  | leech, p => ∃ percent, p = .leech percent
  | modifier, p => ∃ template, p = .modifier template
  | action, p => ∃ id, p = .action id

namespace Payload

variable {p : Payload}

theorem holds_form (p : Payload) : p.form.Holds p := by
  cases p with
  | nothing => rfl
  | _ => exact ⟨_, rfl⟩

theorem form_of_fault? {kind : EffectKind} (h : p.fault? kind = none) : p.form = kind.expects := by
  unfold fault? at h
  split at h
  next hform => exact hform
  next => cases h

theorem holds_of_fault? {kind : EffectKind} (h : p.fault? kind = none) : kind.expects.Holds p :=
  form_of_fault? h ▸ p.holds_form

theorem lasts_of_fault? {t : ModifierTemplate}
    (h : (modifier t).fault? .createCombatModifier = none) : ¬ (t.duration = .turns ∧ t.turns ≤ 0) := by
  intro hends
  simp [fault?, form, EffectKind.expects, hends] at h

theorem elements_ne_nil (pool : List Element) : elements pool ≠ [] := by
  rw [elements]
  split
  · decide
  next h => simpa using h

end Payload

theorem Effect.fault?_of_warnings {e : Effect} (h : e.payloadWarnings = []) :
    e.payload.fault? e.kind = none := by
  simpa [payloadWarnings] using h

/-- Without warnings each payload of an affix suits its effect. -/
theorem Affix.fault?_of_warnings {a : Affix} (h : a.warnings = []) :
    a.effect.payload.fault? a.effect.kind = none ∧
      ∀ s ∈ a.subEffects, s.payload.fault? s.kind = none := by
  obtain ⟨hprimary, -, -, -, -, hsubs⟩ := a.warnings_eq_nil_iff.mp h
  refine ⟨Effect.fault?_of_warnings hprimary, fun s hs => Effect.fault?_of_warnings ?_⟩
  have hs := hsubs s hs
  rw [SubEffect.warnings, List.append_eq_nil_iff, List.append_eq_nil_iff] at hs
  exact hs.1.1

namespace Die

theorem mem_addTag (d : Die) (tag : Label) : tag ∈ (d.addTag tag).tags := by
  rw [addTag]
  split
  next h => simpa using h
  next => simp

theorem not_mem_removeTag (d : Die) (tag : Label) : tag ∉ (d.removeTag tag).tags := by
  simp [removeTag]

end Die

namespace Outcome

variable {σ γ : Type}

/-- A step that completes and another one after it. -/
theorem exists_of_andThen_done {α β : Type} {o : Outcome σ α} {next : α → σ → Outcome σ β} {b : β}
    {t : σ} (h : o.andThen next = done b t) : ∃ a u, o = done a u ∧ next a u = done b t := by
  obtain ⟨a, ha, -, hnext⟩ := exists_of_andThen_ok (congrArg Outcome.answer h)
  exact ⟨a, o.state, by rw [done, ← ha], hnext.symm.trans h⟩

/-- A loop that completes has gone through its first step. -/
theorem exists_of_forEach_cons {step : γ → σ → Outcome σ Unit} {c : γ} {cs : List γ} {s t : σ}
    (h : forEach step (c :: cs) s = done () t) :
    ∃ u, step c s = done () u ∧ forEach step cs u = done () t := by
  obtain ⟨_, u, hstep, hrest⟩ := exists_of_andThen_done h
  exact ⟨u, hstep, hrest⟩

end Outcome

namespace Board

variable {γ : Type} {b c : Board}

/-- The board with more effects reported, and nothing else changed. -/
def reporting (b : Board) (es : List SpecialEffect) : Board :=
  { b with report := { b.report with special := b.report.special ++ es } }

theorem reporting_reporting (b : Board) (es fs : List SpecialEffect) :
    (b.reporting es).reporting fs = b.reporting (es ++ fs) := by
  simp only [reporting, List.append_assoc]

/-- A loop whose steps report one effect each. -/
theorem reports_of_forEach {step : γ → Board → Outcome Board Unit} {R : γ → SpecialEffect → Prop}
    {xs : List γ} {t : Tray} (hb : b.tray = t)
    (hstep : ∀ x s u, s.tray = t → step x s = .done () u → ∃ e, R x e ∧ u = s.reporting [e])
    (h : Outcome.forEach step xs b = .done () c) :
    ∃ es, List.Forall₂ R xs es ∧ c = b.reporting es := by
  induction xs generalizing b with
  | nil =>
    cases h
    exact ⟨[], .nil, by simp [reporting]⟩
  | cons x xs ih =>
    obtain ⟨u, hx, hxs⟩ := Outcome.exists_of_forEach_cons h
    obtain ⟨e, he, rfl⟩ := hstep x b u hb hx
    obtain ⟨es, hes, rfl⟩ := ih (b := b.reporting [e]) hb hxs
    exact ⟨e :: es, .cons he hes, b.reporting_reporting [e] es⟩

/-- A loop whose steps change one die each, so that it passes a test whatever it was. -/
theorem passes_of_forEach {step : DieId → Board → Outcome Board Unit} (change : Die → Die)
    (Q : Die → Prop) {targets : List DieId} (hQ : ∀ d, Q (change d))
    (hstep : ∀ i s, step i s = .done () (s.modifyDie i change) ∨ ∃ e, step i s = .failed e s)
    (h : Outcome.forEach step targets b = .done () c) : ∀ i ∈ targets, Q (c.tray.get i) := by
  -- A later step either leaves the die as it was or makes it pass again.
  have hkeep (i j : DieId) (s : Board) (hs : Q (s.tray.get i)) :
      Q ((step j s).state.tray.get i) := by
    obtain hj | ⟨e, hj⟩ := hstep j s <;> rw [hj]
    · by_cases hij : j = i
      · subst hij
        simpa [Outcome.done, modifyDie] using hQ _
      · simpa [Outcome.done, modifyDie, hij] using hs
    · exact hs
  induction targets generalizing b with
  | nil => simp
  | cons j targets ih =>
    obtain ⟨u, hj, hrest⟩ := Outcome.exists_of_forEach_cons h
    obtain hdone | ⟨e, hfailed⟩ := hstep j b
    · have hu : u = b.modifyDie j change := congrArg Outcome.state (hj.symm.trans hdone)
      have hpass : Q (u.tray.get j) := by
        rw [hu]
        simpa [modifyDie] using hQ _
      have hlast : Q ((Outcome.forEach step targets u).state.tray.get j) :=
        Outcome.forEach_keeps (p := fun s => Q (s.tray.get j)) (fun i _ s => hkeep j i s) hpass
      rw [hrest] at hlast
      exact List.forall_mem_cons.mpr ⟨hlast, ih hrest⟩
    · cases hj.symm.trans hfailed

end Board

namespace Firing

variable (f : Firing)

/-- An effect as the firing reports it, on a target if it has one. -/
def reported (b : Board) (kind : SpecialKind) (target? : Option DieId) (data : SpecialData) :
    SpecialEffect :=
  { kind, sourceSlot := (b.tray.get f.source).slot
    targetSlot? := target?.map fun i => (b.tray.get i).slot, sourceName := f.name, data }

/-- The report of a modifier as its template describes it, with turns left and a resolved value. -/
def Creates (b : Board) (t : ModifierTemplate) (target? : Option DieId) (e : SpecialEffect) :
    Prop :=
  ∃ m : Modifier, e = f.reported b .createCombatModifier target? (.modifier m) ∧
    m.modType = t.modType ∧ m.duration = t.duration ∧ m.turnsLeft = t.turns ∧ m.filter = t.filter ∧
    f.magnitude b target? = .ok m.value ∧ m.isExpired = false

/-- What an effect delivers once it is applied: by its kind, with the payload that was authored. -/
inductive Delivers (targets : List DieId) (b c : Board) : Prop
  | leech {percent : Float} (hk : f.effect.kind = .leechHeal)
    (hp : f.effect.payload = .leech percent) (h : c = b.reporting [f.reported b .leechHeal (some f.source) (.percent percent)])
  | destroy (hk : f.effect.kind = .destroySelf)
    (h : c = b.reporting [f.reported b .destroyFromPool (some f.source) .nothing])
  | tagged {tag : Label} (hk : f.effect.kind = .addTag) (hp : f.effect.payload = .tag tag)
    (h : ∀ i ∈ targets, tag ∈ (c.tray.get i).tags)
  | untagged {tag : Label} (hk : f.effect.kind = .removeTag) (hp : f.effect.payload = .tag tag)
    (h : ∀ i ∈ targets, tag ∉ (c.tray.get i).tags)
  | painted {element : Element} (hk : f.effect.kind = .setElement)
    (hp : f.effect.payload = .element element) (h : ∀ i ∈ targets, (c.tray.get i).element = element)
  | randomized {pool : List Element} (hk : f.effect.kind = .randomizeElement)
    (hp : f.effect.payload = .randomize pool) (hne : Payload.elements pool ≠ [])
    (h : c = b.reporting (targets.map fun i =>
      f.reported b .randomizeElement (some i) (.elements (Payload.elements pool))))
  | created {t : ModifierTemplate} (hk : f.effect.kind = .createCombatModifier)
    (hp : f.effect.payload = .modifier t) {es : List SpecialEffect}
    (hes : List.Forall₂ (f.Creates b t)
      (if t.filter = .single then targets.map some else [none]) es)
    (h : c = b.reporting es)
  | aside (hk : f.effect.kind ∈ [.statBonus, .grantAction, .flatBonus, .setMinimum])

variable {f} {targets : List DieId} {b c : Board}

theorem emitModifier_creates {t : ModifierTemplate} (ht : ¬ (t.duration = .turns ∧ t.turns ≤ 0))
    {target? : Option DieId} (hb : c.tray = b.tray) {d : Board}
    (h : f.emitModifier t target? c = .done () d) :
    ∃ e, f.Creates b t target? e ∧ d = c.reporting [e] := by
  rw [emitModifier] at h
  cases hm : f.magnitude c target? with
  | error e =>
    rw [hm] at h
    cases h
  | ok value =>
    rw [hm] at h
    cases h
    have hmb : f.magnitude b target? = .ok value := by
      rw [← hm, magnitude, magnitude, sourceDie, sourceDie, hb]
    refine ⟨_, ⟨f.modifier c t value (target?.map fun i => (c.tray.get i).slot), ?_, rfl, rfl, rfl,
      rfl, hmb, decide_eq_false ht⟩, rfl⟩
    rw [reported, ← hb]
    rfl

theorem hit_of_randomize {pool : List Element} (hk : f.effect.kind = .randomizeElement)
    (hp : f.effect.payload = .randomize pool) (hb : c.tray = b.tray) {i : DieId} {d : Board}
    (h : f.hit i c = .done () d) :
    d = c.reporting
      [f.reported b .randomizeElement (some i) (.elements (Payload.elements pool))] := by
  simp only [hit, hk, hp] at h
  cases h
  rw [reported, ← hb]
  rfl

theorem retag_cases (tag : Label) (change : Die → Die) (i : DieId) (s : Board) :
    retag tag change i s = .done () (s.modifyDie i change) ∨
      ∃ e, retag tag change i s = .failed e s := by
  rw [retag]
  split
  · exact .inl rfl
  · exact .inr ⟨_, rfl⟩

/-- A template that lasts is reported for each target where it is for single dice, else once. -/
theorem exists_creates_of_apply {t : ModifierTemplate} (hk : f.effect.kind = .createCombatModifier)
    (hp : f.effect.payload = .modifier t) (ht : ¬ (t.duration = .turns ∧ t.turns ≤ 0))
    (h : f.apply targets b = .done () c) :
    ∃ es, List.Forall₂ (f.Creates b t) (if t.filter = .single then targets.map some else [none]) es ∧
      c = b.reporting es := by
  simp only [apply, hk, hp] at h
  split at h
  next hsingle =>
    obtain ⟨es, hes, hc⟩ := Board.reports_of_forEach (R := fun i => f.Creates b t (some i)) rfl
      (fun i s u hs hu => emitModifier_creates ht hs hu) h
    rw [if_pos hsingle]
    exact ⟨es, List.forall₂_map_left_iff.mpr hes, hc⟩
  next hwide =>
    obtain ⟨e, he, hc⟩ := emitModifier_creates ht rfl h
    rw [if_neg hwide]
    exact ⟨[e], .cons he .nil, hc⟩

theorem delivers_of_apply (hf : f.effect.payload.fault? f.effect.kind = none)
    (h : f.apply targets b = .done () c) : f.Delivers targets b c := by
  have hholds := Payload.holds_of_fault? hf
  cases hk : f.effect.kind with
  | statBonus => exact .aside (by simp [hk])
  | grantAction => exact .aside (by simp [hk])
  | flatBonus => exact .aside (by simp [hk])
  | setMinimum => exact .aside (by simp [hk])
  | leechHeal =>
    rw [hk] at hholds
    obtain ⟨percent, hp⟩ := hholds
    simp only [apply, hk, hp] at h
    cases h
    exact .leech hk hp rfl
  | destroySelf =>
    simp only [apply, hk] at h
    cases h
    exact .destroy hk rfl
  | addTag =>
    rw [hk] at hholds
    obtain ⟨tag, hp⟩ := hholds
    simp only [apply, hk] at h
    refine .tagged hk hp (Board.passes_of_forEach (·.addTag tag) (tag ∈ ·.tags)
      (fun d => d.mem_addTag tag) (fun i s => ?_) h)
    simp only [hit, hk, hp]
    exact retag_cases tag _ i s
  | removeTag =>
    rw [hk] at hholds
    obtain ⟨tag, hp⟩ := hholds
    simp only [apply, hk] at h
    refine .untagged hk hp (Board.passes_of_forEach (·.removeTag tag) (tag ∉ ·.tags)
      (fun d => d.not_mem_removeTag tag) (fun i s => ?_) h)
    simp only [hit, hk, hp]
    exact retag_cases tag _ i s
  | setElement =>
    rw [hk] at hholds
    obtain ⟨element, hp⟩ := hholds
    simp only [apply, hk] at h
    refine .painted hk hp (Board.passes_of_forEach (fun d => { d with element })
      (·.element = element) (fun _ => rfl) (fun i s => .inl ?_) h)
    simp only [hit, hk, hp]
  | randomizeElement =>
    rw [hk] at hholds
    obtain ⟨pool, hp⟩ := hholds
    simp only [apply, hk] at h
    obtain ⟨es, hes, rfl⟩ := Board.reports_of_forEach
      (R := fun i e =>
        f.reported b .randomizeElement (some i) (.elements (Payload.elements pool)) = e)
      rfl (fun i s u hs hu => ⟨_, rfl, hit_of_randomize hk hp hs hu⟩) h
    rw [← List.forall₂_map_left_iff, List.forall₂_eq_eq_eq] at hes
    exact .randomized hk hp (Payload.elements_ne_nil pool) (by rw [hes])
  | createCombatModifier =>
    rw [hk] at hholds
    obtain ⟨t, hp⟩ := hholds
    obtain ⟨es, hes, hc⟩ := exists_creates_of_apply hk hp (Payload.lasts_of_fault? (hp ▸ hk ▸ hf)) h
    exact .created hk hp hes hc

end Firing

namespace Stage

variable {g : Stage} {source : DieId} {a : Affix} {b c : Board} {effect : Effect} {v : Verdict}
  {targets : List DieId}

/-- What fires is the primary effect or one of the sub-effects. -/
theorem Fires.mem_effects (h : g.Fires source a b effect v targets c) :
    effect = a.effect ∨ ∃ s ∈ a.subEffects, effect = s.toEffect := by
  cases h with
  | primary => exact .inl rfl
  | part hs => exact .inr ⟨_, by simp [hs], rfl⟩

end Stage

/-- When an affix without warnings is dispatched, each of its effects that fires and is applied
delivers what was authored: no effect falls back because its payload has another form. -/
theorem validated_affix_delivers {a : Affix} (ha : a.warnings = []) (g : Stage) (source : DieId)
    (b : Board) {effect : Effect} {v : Verdict} {targets : List DieId} {c : Board}
    (hfires : g.Fires source a b effect v targets c) {d : Board}
    (hdone : (⟨g.scene, source, a.name, effect, v⟩ : Firing).apply targets c = .done () d) :
    effect.payload.form = effect.kind.expects ∧
      (⟨g.scene, source, a.name, effect, v⟩ : Firing).Delivers targets c d := by
  have hfault : effect.payload.fault? effect.kind = none := by
    obtain ⟨hprimary, hsubs⟩ := Affix.fault?_of_warnings ha
    obtain rfl | ⟨s, hs, rfl⟩ := hfires.mem_effects
    · exact hprimary
    · exact hsubs s hs
  exact ⟨Payload.form_of_fault? hfault, Firing.delivers_of_apply hfault hdone⟩

/-- A sub-effect after a modifier for each neighbor and a tag for the whole hand. -/
theorem validated_affix_delivers_after_modifiers :
    let mark : SubEffect := { kind := .addTag, payload := .tag "sworn", target? := some .all }
    let drain : SubEffect := { kind := .leechHeal, payload := .leech 0.5 }
    let oath : Affix :=
      { name := "Oath", trigger := .onUse, selector := .neighbors, subEffects := [mark, drain]
        effect := { kind := .createCombatModifier, value := 2
                    payload := .modifier { duration := .turns, turns := 1, filter := .single } } }
    let t : Tray :=
      { cells := [(0, { slot := 0 }), (1, { slot := 1 }), (2, { slot := 2, tags := ["sworn"] })]
        next := 3 }
    let g : Stage := { scene := {}, hand := [0, 1, 2] }
    let b : Board := { tray := t }
    let c : Board := (g.applyEffects 1 { oath with subEffects := [mark] } .passed b).state
    let f : Firing := ⟨g.scene, 1, oath.name, drain.toEffect, .passed⟩
    oath.warnings = [] ∧ g.Fires 1 oath b drain.toEffect .passed [0, 2] c ∧
      c.report.special.length = 2 ∧ ∃ d, f.apply [0, 2] c = .done () d ∧ f.Delivers [0, 2] c d := by
  intro mark drain oath t g b c f
  have hwarnings : oath.warnings = [] := by decide +kernel
  have hanswer :
      (g.applyEffects 1 { oath with subEffects := [mark] } .passed b).answer = .ok true := by
    decide +kernel
  have hbefore : g.applyEffects 1 { oath with subEffects := [mark] } .passed b = .done true c := by
    rw [Outcome.done, ← hanswer]
  have hsubs : oath.subEffects = [mark] ++ drain :: [] := rfl
  have hfires : g.Fires 1 oath b drain.toEffect .passed [0, 2] c :=
    .part hsubs rfl hbefore rfl rfl
  exact ⟨hwarnings, hfires, by decide +kernel, _, rfl,
    (validated_affix_delivers hwarnings g 1 b hfires rfl).2⟩

end AffixRules
