import AffixRules.Proofs.Condition.Fallback
import AffixRules.Proofs.Dispatch.Notes
import Mathlib.Data.List.Basic

/-! Dispatching an affix whose effects write no dice, beside expanding it: the same effects fire,
and each modifier for the whole hand has the value of its part. The two part ways only where a value
cannot be resolved, for an expansion resolves the value of every part and a dispatch that of
modifiers. -/
namespace AffixRules

/-- Whether an effect writes dice. -/
def EffectKind.inPlace : EffectKind → Bool
  | flatBonus | setMinimum | addTag | removeTag | setElement => true
  | _ => false

/-- The modifier to make; a payload of another form stands for a plain one. -/
def Payload.template : Payload → ModifierTemplate
  | .modifier t => t
  | _ => {}

def Affix.effects (a : Affix) : List Effect := a.effect :: a.subEffects.map (·.toEffect)

/-- Whether an effect makes one modifier for the hand, and not one for each target. -/
def Effect.isHandWide (e : Effect) : Bool :=
  e.kind = .createCombatModifier && e.payload.template.filter ≠ .single

/-- The report of a part that makes a modifier for the hand. -/
def FiredPart.handWide? (p : FiredPart) (source : Die) (name : Label) : Option SpecialEffect :=
  let t := p.payload.template
  if p.kind = .createCombatModifier ∧ t.filter ≠ .single then
    some
      { kind := .createCombatModifier, sourceSlot := source.slot, sourceName := name
        data := .modifier
          { modType := t.modType, value := p.value, duration := t.duration, turnsLeft := t.turns
            filter := t.filter, sourceSlot := source.slot, sourceName := name } }
  else none

def SpecialEffect.isHandWide (e : SpecialEffect) : Bool :=
  e.modifier?.any fun m => m.filter ≠ .single

namespace Board

/-- The reported modifiers for the hand. -/
def handWide (b : Board) : List SpecialEffect := b.report.special.filter (·.isHandWide)

theorem handWide_emit (b : Board) (e : SpecialEffect) :
    (b.emit e).handWide = b.handWide ++ if e.isHandWide then [e] else [] := by
  simp [handWide, emit, Report.emit, List.filter_cons]

/-- A step that reports nothing for the hand and writes no dice; it can fail only where a value is
not resolved. -/
structure Aside (resolved : Prop) (b : Board) (o : Outcome Board Unit) : Prop where
  tray_eq : o.state.tray = b.tray
  handWide_eq : o.state.handWide = b.handWide
  answer_eq : resolved → o.answer = .ok ()

variable {resolved : Prop} {b : Board}

theorem aside_done : Aside resolved b (.done () b) := ⟨rfl, rfl, fun _ => rfl⟩

theorem aside_emit {e : SpecialEffect} (he : e.isHandWide = false) :
    Aside resolved b (.done () (b.emit e)) :=
  ⟨rfl, by simp [Outcome.done, handWide_emit, he], fun _ => rfl⟩

theorem aside_forEach {α : Type} {step : α → Board → Outcome Board Unit} {as : List α}
    (h : ∀ a ∈ as, ∀ c, c.tray = b.tray → Aside resolved c (step a c)) :
    Aside resolved b (Outcome.forEach step as b) := by
  induction as generalizing b with
  | nil => exact aside_done
  | cons a as ih =>
    obtain ⟨hfirst, hrest⟩ := List.forall_mem_cons.mp h
    obtain ⟨htray, hwide, hanswer⟩ := hfirst b rfl
    unfold Outcome.forEach
    generalize step a b = o at htray hwide hanswer
    obtain ⟨answer, c⟩ := o
    cases answer with
    | error e => exact ⟨htray, hwide, hanswer⟩
    | ok u =>
      have hall := ih (b := c) fun a ha d hd => hrest a ha d (hd.trans htray)
      exact ⟨hall.tray_eq.trans htray, hall.handWide_eq.trans hwide, hall.answer_eq⟩

end Board

namespace Firing

variable (f : Firing) {resolved : Prop}

open Board

theorem hit_aside (hk : f.effect.kind.inPlace = false) (i : DieId) (b : Board) :
    Aside resolved b (f.hit i b) := by
  unfold hit
  cases h : f.effect.kind with
  | randomizeElement => exact aside_emit rfl
  | flatBonus | setMinimum | addTag | removeTag | setElement =>
    rw [h] at hk
    cases hk
  | _ => exact aside_done

theorem emitModifier_aside {t : ModifierTemplate} (ht : t.filter = .single) {i : DieId} {b : Board}
    (hr : resolved → ∃ x, f.magnitude b (some i) = .ok x) :
    Aside resolved b (f.emitModifier t (some i) b) := by
  unfold emitModifier
  cases h : f.magnitude b (some i) with
  | error e =>
    refine ⟨rfl, rfl, fun hresolved => ?_⟩
    obtain ⟨x, hx⟩ := hr hresolved
    cases hx.symm.trans h
  | ok x => exact aside_emit (by simp [SpecialEffect.isHandWide, SpecialEffect.modifier?, special,
      modifier, ht])

theorem apply_aside (hk : f.effect.kind.inPlace = false) (hw : f.effect.isHandWide = false)
    {targets : List DieId} {b : Board}
    (hr : ∀ i ∈ targets, ∀ c, c.tray = b.tray → resolved → ∃ x, f.magnitude c (some i) = .ok x) :
    Aside resolved b (f.apply targets b) := by
  have hhits : Aside resolved b (Outcome.forEach f.hit targets b) :=
    aside_forEach fun i _ c _ => f.hit_aside hk i c
  unfold apply
  cases h : f.effect.kind with
  | leechHeal =>
    cases f.effect.payload with
    | leech percent => exact aside_emit rfl
    | _ => exact aside_done
  | destroySelf => exact aside_emit rfl
  | createCombatModifier =>
    have hsingle : f.effect.payload.template.filter = .single := by
      simpa [Effect.isHandWide, h] using hw
    change Aside resolved b (if f.effect.payload.template.filter = .single then _ else _)
    rw [if_pos hsingle]
    exact aside_forEach fun i hi c hc => f.emitModifier_aside hsingle (hr i hi c hc)
  | _ => exact hhits

theorem apply_handWide (hw : f.effect.isHandWide = true) (targets : List DieId) (b : Board) :
    f.apply targets b = f.emitModifier f.effect.payload.template none b := by
  obtain ⟨hkind, hfilter⟩ : f.effect.kind = .createCombatModifier ∧
      f.effect.payload.template.filter ≠ .single := by simpa [Effect.isHandWide] using hw
  unfold apply
  rw [hkind]
  exact if_neg hfilter

end Firing

/-- A dispatched step beside the parts of an expansion. Where both answer, the step fires exactly if
there are parts, and it reports those for the hand in their order; where every value is resolved,
both answer or fail together. No die is written. -/
structure Expands (resolved : Prop) (source : Die) (name : Label) (b : Board)
    (o : Outcome Board Bool) (expansion : Except Failure (List FiredPart)) : Prop where
  tray_eq : o.state.tray = b.tray
  answer_eq : resolved → o.answer = expansion.map fun parts => !parts.isEmpty
  reports : ∀ fired parts, o.answer = .ok fired → expansion = .ok parts →
    (fired = !parts.isEmpty) ∧
      o.state.handWide = b.handWide ++ parts.filterMap (·.handWide? source name)

namespace Expands

variable {resolved : Prop} {source : Die} {name : Label} {b : Board}

theorem silent : Expands resolved source name b (.done false b) (.ok []) :=
  ⟨rfl, fun _ => rfl, fun _ _ ho hp => by cases ho; cases hp; simp [Outcome.done]⟩

theorem failed (e : Failure) : Expands resolved source name b (.failed e b) (.error e) :=
  ⟨rfl, fun _ => rfl, fun _ _ ho => by cases ho⟩

theorem andThen {o : Outcome Board Bool} {next : Board → Outcome Board Bool}
    {expansion rest : Except Failure (List FiredPart)}
    (h : Expands resolved source name b o expansion)
    (hn : ∀ c, c.tray = b.tray → Expands resolved source name c (next c) rest) :
    Expands resolved source name b (o.andThen fun fired c => (next c).map (fired || ·))
      (do let parts ← expansion; let more ← rest; pure (parts ++ more)) := by
  obtain ⟨htray, hanswer, hreports⟩ := h
  obtain ⟨answer, c⟩ := o
  have hnext : Expands resolved source name c (next c) rest := hn c htray
  cases answer with
  | error e =>
    refine ⟨htray, fun hr => ?_, fun _ _ ho => by cases ho⟩
    cases expansion with
    | error e' => exact hanswer hr
    | ok parts => cases hanswer hr
  | ok fired =>
    refine ⟨hnext.tray_eq.trans htray, fun hr => ?_, fun any all ho hp => ?_⟩
    · cases expansion with
      | error e' => cases hanswer hr
      | ok parts =>
        obtain rfl : fired = !parts.isEmpty := by simpa [Except.map] using hanswer hr
        have hrest : (next c).answer = rest.map fun more => !more.isEmpty := hnext.answer_eq hr
        simp only [Outcome.andThen, Outcome.map, hrest]
        cases rest with
        | error e => rfl
        | ok more => cases parts <;> rfl
    · cases expansion with
      | error e => cases hp
      | ok parts =>
        cases rest with
        | error e => cases hp
        | ok more =>
          obtain ⟨rfl, hwide⟩ := hreports fired parts rfl rfl
          obtain ⟨fired', hfired, rfl⟩ := Outcome.exists_of_map_ok ho
          obtain ⟨rfl, hwide'⟩ := hnext.reports fired' more hfired rfl
          obtain rfl : parts ++ more = all := by
            simpa [pure, Except.pure, bind, Except.bind] using hp
          change _ ∧ (next c).state.handWide = _
          refine ⟨by cases parts <;> rfl, ?_⟩
          rw [hwide', show c.handWide = _ from hwide, List.filterMap_append, List.append_assoc]

/-- What is reported beside the hand expands to one part, unless its value is not resolved. -/
theorem of_aside {o : Outcome Board Unit} {value : Except Failure Float} {part : Float → FiredPart}
    (h : Board.Aside resolved b o) (hv : resolved → ∃ x, value = .ok x)
    (hp : ∀ x, (part x).handWide? source name = none) :
    Expands resolved source name b (o.andThen fun _ c => .done true c)
      (value.map fun x => [part x]) := by
  obtain ⟨htray, hwide, hanswer⟩ := h
  obtain ⟨answer, c⟩ := o
  cases answer with
  | error e => exact ⟨htray, fun hr => (by cases hanswer hr), fun _ _ ho => by cases ho⟩
  | ok u =>
    refine ⟨htray, fun hr => ?_, fun fired parts ho hparts => ?_⟩
    · obtain ⟨x, rfl⟩ := hv hr
      rfl
    · cases ho
      cases value with
      | error e => cases hparts
      | ok x =>
        cases hparts
        have hsame : c.handWide = b.handWide ++ [part x].filterMap (·.handWide? source name) := by
          simpa [hp x] using hwide
        exact ⟨rfl, hsame⟩

/-- The name is noted exactly if there are parts. -/
theorem note {o : Outcome Board Bool} {expansion : Except Failure (List FiredPart)}
    (h : Expands resolved source name b o expansion) :
    let whole := o.andThen (Board.note name)
    whole.state.tray = b.tray ∧
      (∀ parts, whole.answer = .ok () → expansion = .ok parts →
        whole.state.report.fired = o.state.report.fired ++ (if parts = [] then [] else [name]) ∧
          whole.state.handWide = b.handWide ++ parts.filterMap (·.handWide? source name)) ∧
      (resolved → whole.answer = expansion.map fun _ => ()) := by
  obtain ⟨htray, hanswer, hreports⟩ := h
  obtain ⟨answer, c⟩ := o
  cases answer with
  | error e =>
    refine ⟨htray, fun _ h => (by cases h), fun hr => ?_⟩
    cases expansion with
    | error e' =>
      cases hanswer hr
      rfl
    | ok parts => cases hanswer hr
  | ok any =>
    refine ⟨?_, fun parts _ hx => ?_, fun hr => ?_⟩
    · rw [← htray]
      cases any <;> rfl
    · obtain ⟨rfl, hwide⟩ := hreports any parts rfl hx
      rw [← hwide]
      cases parts <;> simp [Outcome.andThen, Outcome.done, Board.note, Report.name, Board.handWide]
    · cases expansion with
      | error e => cases hanswer hr
      | ok parts => rfl

end Expands

namespace Stage

variable (g : Stage)

/-- What an expansion sees of a stage. -/
def context (t : Tray) : Context := { g.scene with hand := t.dice g.hand }

/-- The value source of an effect yields a value, for no target and for each die in reach. -/
def Resolves (t : Tray) (source : DieId) (e : Effect) : Prop :=
  ∀ target?, (∀ i, target? = some i → g.Reaches t source i) →
    ∃ x, e.base g.scene (.die (t.get source))
      ((target?.map fun i => Subject.die (t.get i)).getD .none) = .ok x

variable {g} {t : Tray} {source : DieId} {resolved : Prop}

theorem resolves_of_doubles {e : Effect}
    (hd : ∀ i, g.Reaches t source i → ∃ x, toDouble (t.get i).value = .ok x)
    (hn : ∃ x, toDouble g.scene.usedCount = .ok x) (hs : e.sourceStat.isName = true) :
    g.Resolves t source e := by
  intro target? hreach
  have htarget := Subject.ordinary_target fun i hi => hd i (hreach i hi)
  have hself : (Subject.die (t.get source)).Ordinary := hd source (.inl rfl)
  exact (Effect.base_answers (p := False) hn hself htarget hs).ok id

theorem Resolves.magnitude {e : Effect} (h : g.Resolves t source e) (name : Label) (v : Verdict)
    {target? : Option DieId} (ht : ∀ i, target? = some i → g.Reaches t source i) {c : Board}
    (hc : c.tray = t) :
    ∃ x, (⟨g.scene, source, name, e, v⟩ : Firing).magnitude c target? = .ok x := by
  subst hc
  obtain ⟨x, hx⟩ := h target? ht
  unfold Firing.magnitude Effect.magnitude
  split
  · exact ⟨_, rfl⟩
  · exact ⟨x * v.multiplier, by simp [Firing.sourceDie, hx, Except.map]⟩

theorem applyEffect_expands {e : Effect} (hk : e.kind.inPlace = false)
    (hr : resolved → g.Resolves t source e) (name : Label) (v : Verdict) {targets : List DieId}
    (ht : ∀ i ∈ targets, g.Reaches t source i) (selector : TargetSelector) (index? : Option Nat)
    {b : Board} (hb : b.tray = t) :
    Expands resolved (t.get source) name b (g.applyEffect source name e v targets b)
      (e.fired g.scene (.die (t.get source)) v selector index?) := by
  subst hb
  cases hv : v.blocked with
  | true =>
    simp only [applyEffect, Effect.fired, hv]
    exact .silent
  | false =>
    let f : Firing := ⟨g.scene, source, name, e, v⟩
    have hdispatch : g.applyEffect source name e v targets b =
        (f.apply targets b).andThen fun _ c => .done true c := by simp [applyEffect, hv, f]
    have hexpand : e.fired g.scene (.die (b.tray.get source)) v selector index? =
        (f.magnitude b none).map fun value => [⟨e.kind, value, e.payload, selector, index?⟩] := by
      simp only [Effect.fired, hv]
      rfl
    rw [hdispatch, hexpand]
    cases hw : e.isHandWide with
    | true =>
      obtain ⟨hkind, hfilter⟩ : e.kind = .createCombatModifier ∧
          e.payload.template.filter ≠ .single := by simpa [Effect.isHandWide] using hw
      rw [f.apply_handWide hw]
      unfold Firing.emitModifier
      cases f.magnitude b none with
      | error e => exact .failed e
      | ok value =>
        refine ⟨rfl, fun _ => rfl, fun fired parts ho hp => ?_⟩
        cases ho
        cases hp
        refine ⟨rfl, (Board.handWide_emit b _).trans ?_⟩
        simp [SpecialEffect.isHandWide, SpecialEffect.modifier?, FiredPart.handWide?, hkind,
          hfilter, Firing.special, Firing.modifier, Firing.sourceDie, f]
    | false =>
      have htarget {i : DieId} (hi : i ∈ targets) (j : DieId) (hj : some i = some j) :
          g.Reaches b.tray source j := by
        cases hj
        exact ht i hi
      have haside : Board.Aside resolved b (f.apply targets b) :=
        f.apply_aside hk hw fun i hi c hc h => (hr h).magnitude name v (htarget hi) hc
      refine .of_aside haside (fun h => (hr h).magnitude name v (fun _ hi => by cases hi) rfl) ?_
      intro value
      simpa [FiredPart.handWide?, Effect.isHandWide] using hw

theorem applySubEffect_expands {s : SubEffect} (hk : s.kind.inPlace = false)
    (hr : resolved → g.Resolves t source s.toEffect) (name : Label) (parent : Verdict)
    {targets : List DieId} (ht : ∀ i ∈ targets, g.Reaches t source i) (selector : TargetSelector)
    (index? : Option Nat) {b : Board} (hb : b.tray = t) :
    Expands resolved (t.get source) name b (g.applySubEffect source name parent targets s b)
      (do
        let v ← s.verdict parent (.ofContext (g.context t) (.die (t.get source)) none none)
        s.toEffect.fired (g.context t).toScene (.die (t.get source)) v selector index?) := by
  subst hb
  have hview : View.ofContext (g.context b.tray) (.die (b.tray.get source)) none none =
      g.view source b := rfl
  have hown : ∀ i ∈ g.targetsOf source s targets b.tray, g.Reaches b.tray source i := by
    unfold targetsOf
    cases s.target? with
    | none => exact ht
    | some selector => exact fun i hi => g.reaches_of_mem_targets hi
  rw [applySubEffect_eq, hview]
  cases s.verdict parent (g.view source b) with
  | error e => exact .failed e
  | ok v => exact applyEffect_expands hk hr name v hown selector index? rfl

theorem applySubEffects_expands {subs : List SubEffect} (hk : ∀ s ∈ subs, s.kind.inPlace = false)
    (hr : resolved → ∀ s ∈ subs, g.Resolves t source s.toEffect) (name : Label) (parent : Verdict)
    {targets : List DieId} (ht : ∀ i ∈ targets, g.Reaches t source i) (selector : TargetSelector)
    (i : Nat) {b : Board} (hb : b.tray = t) :
    Expands resolved (t.get source) name b (g.applySubEffects source name parent targets subs b)
      (subEffectParts (g.context t) (.die (t.get source)) parent selector i subs) := by
  induction subs generalizing i b with
  | nil => exact .silent
  | cons s rest ih =>
    obtain ⟨hfirst, hrest⟩ := List.forall_mem_cons.mp hk
    have hall := (applySubEffect_expands hfirst (fun h => hr h s (by simp)) name parent ht
      (s.target?.getD selector) (some i) hb).andThen fun c hc =>
        ih hrest (fun h s hs => hr h s (by simp [hs])) (i + 1) (hc.trans hb)
    rw [applySubEffects_cons]
    simpa only [subEffectParts, bind_assoc] using hall

theorem applyEffects_expands {a : Affix} (ha : ∀ e ∈ a.effects, e.kind.inPlace = false)
    (hr : resolved → ∀ e ∈ a.effects, g.Resolves t source e) (v : Verdict) {b : Board}
    (hb : b.tray = t) :
    Expands resolved (t.get source) a.name b (g.applyEffects source a v b)
      (do
        let primary ← a.effect.fired (g.context t).toScene (.die (t.get source)) v a.selector none
        let parts ← subEffectParts (g.context t) (.die (t.get source)) v a.selector 0 a.subEffects
        pure (primary ++ parts)) := by
  have ht : ∀ i ∈ b.tray.targets g.hand source a.selector, g.Reaches t source i := fun i hi =>
    hb ▸ g.reaches_of_mem_targets hi
  have hsub {s : SubEffect} (hs : s ∈ a.subEffects) : s.toEffect ∈ a.effects :=
    List.mem_cons_of_mem _ (List.mem_map_of_mem hs)
  have hfirst := applyEffect_expands (ha a.effect (by simp [Affix.effects]))
    (fun h => hr h a.effect (by simp [Affix.effects])) a.name v ht a.selector none hb
  exact hfirst.andThen fun c hc => applySubEffects_expands (fun s hs => ha _ (hsub hs))
    (fun h s hs => hr h _ (hsub hs)) a.name v ht a.selector 0 (hc.trans hb)

end Stage

/-- From a die, an affix whose effects write no dice is dispatched as it is expanded. Where both
complete, its name is noted exactly if a part fires, and the modifiers for the hand are those of the
parts, in their order and each with the value of its part. Where all value sources yield values both
complete, or both fail in the same way; and no die is written in any case. -/
theorem dispatch_fires_what_expands (g : Stage) (source : DieId) (a : Affix) (b : Board)
    (ha : ∀ e ∈ a.effects, e.kind.inPlace = false) :
    let die := b.tray.get source
    let o := g.applyAffix source a b
    let expansion := a.firedParts (g.context b.tray) (.die die)
    o.state.tray = b.tray ∧
      (∀ parts, o.answer = .ok () → expansion = .ok parts →
        o.state.report.fired = b.report.fired ++ (if parts = [] then [] else [a.name]) ∧
          o.state.handWide = b.handWide ++ parts.filterMap (·.handWide? die a.name)) ∧
      ((∀ e ∈ a.effects, g.Resolves b.tray source e) →
        o.answer = expansion.map fun _ => ()) := by
  intro die o expansion
  cases hv : Condition.evaluate? a.condition? (g.view source b) with
  | error e =>
    have ho : o = .failed e b := by simp only [o, Stage.applyAffix_eq, hv]
    have hexpansion : expansion = .error e := congrArg (· >>= _) hv
    rw [ho, hexpansion]
    exact ⟨rfl, fun _ h => (by cases h), fun _ => rfl⟩
  | ok v =>
    let all := g.applyEffects source a v b
    have ho : o = all.andThen (Board.note a.name) := by
      simp only [o, all, Stage.applyAffix_eq, hv]
    have hall : Expands (∀ e ∈ a.effects, g.Resolves b.tray source e) die a.name b all
        expansion := by
      have hexpansion : expansion = _ := congrArg (· >>= _) hv
      rw [hexpansion]
      exact Stage.applyEffects_expands ha id v rfl
    have hnames : all.state.report.fired = b.report.fired :=
      (g.applyEffects_noting source a v).fired_eq b.report
    rw [ho, ← hnames]
    exact hall.note

/-- Four parts fire, and two of them make a modifier for the hand: one scales with the source die,
the other with the dice used. -/
theorem dispatch_fires_what_expands_with_two_modifiers :
    let t : Tray :=
      { cells := [(0, { slot := 0, value := 4 }), (1, { slot := 1, value := 6 })], next := 2 }
    let g : Stage := { scene := { usedCount := 3 }, hand := [0, 1] }
    let chorus (filter : TargetFilter) (value : Float) (source : ValueSource) : SubEffect :=
      { kind := .createCombatModifier, value, payload := .modifier { filter }, source }
    let a : Affix :=
      { name := "Chorus", effect := { kind := .leechHeal, payload := .leech 0.25 }
        selector := .neighbors
        subEffects :=
          [chorus .allExceptSource 0.5 .selfValueFraction, chorus .single 0.5 .neighborPercent,
            { chorus .all 1 .static with
              condition? := some { kind := .selfValueAbove, threshold := 5 } },
            { chorus .all 2 .static with condition? := some { kind := .perUsedDie } }] }
    let o := g.applyAffix 0 a { tray := t }
    (∀ e ∈ a.effects, e.kind.inPlace = false) ∧ (∀ e ∈ a.effects, g.Resolves t 0 e) ∧
      o.answer = .ok () ∧ o.state.report.fired = [a.name] ∧
      (SpecialEffect.modifiers o.state.handWide).map (·.value) = [2, 6] := by
  intro t g chorus a o
  have ha : ∀ e ∈ a.effects, e.kind.inPlace = false := by decide
  have hdie (i : DieId) (h : g.Reaches t 0 i) : ∃ x, toDouble (t.get i).value = .ok x := by
    have hi : i ∈ g.hand := h.elim (fun h => h ▸ by decide) fun h => h.1
    obtain rfl | rfl : i = 0 ∨ i = 1 := by simpa [g] using hi
    · exact ⟨4, by decide +kernel⟩
    · exact ⟨6, by decide +kernel⟩
  have hr : ∀ e ∈ a.effects, g.Resolves t 0 e := by
    have hstat : ∀ e ∈ a.effects, e.sourceStat.isName = true := by decide +kernel
    exact fun e he => Stage.resolves_of_doubles hdie ⟨3, by decide +kernel⟩ (hstat e he)
  have hparts : a.firedParts (g.context t) (.die (t.get 0)) = .ok
      [⟨.leechHeal, 0, .leech 0.25, .neighbors, none⟩,
        ⟨.createCombatModifier, 2, .modifier { filter := .allExceptSource }, .neighbors, some 0⟩,
        ⟨.createCombatModifier, 0, .modifier { filter := .single }, .neighbors, some 1⟩,
        ⟨.createCombatModifier, 6, .modifier {}, .neighbors, some 3⟩] := by
    decide +kernel
  obtain ⟨-, hreports, hanswer⟩ := dispatch_fires_what_expands g 0 a { tray := t } ha
  have hok : o.answer = .ok () := (hanswer hr).trans (congrArg _ hparts)
  obtain ⟨hfired, hwide⟩ := hreports _ hok hparts
  refine ⟨ha, hr, hok, hfired, ?_⟩
  rw [hwide]
  decide +kernel

/-- The value of a bonus is part of its expansion, while a dispatch has no use for it: with a die
beyond the doubles the name is noted, and the expansion fails. -/
theorem dispatch_notes_name_without_expansion :
    let g : Stage := { scene := {}, hand := [0] }
    let t : Tray := { cells := [(0, { slot := 0, value := Int.pow 10 309 })], next := 1 }
    let a : Affix := { name := "Echo", effect := { source := .selfValueFraction } }
    let o := g.applyAffix 0 a { tray := t }
    (∀ e ∈ a.effects, e.kind.inPlace = false) ∧ o.answer = .ok () ∧
      o.state.report.fired = [a.name] ∧
      a.firedParts (g.context t) (.die (t.get 0)) = .error .tooLarge := by
  decide +kernel

end AffixRules
