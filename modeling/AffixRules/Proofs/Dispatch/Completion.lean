import AffixRules.Proofs.Content.Loaded
import AffixRules.Proofs.Dispatch.Notes
import AffixRules.Proofs.Number.Whole
import Mathlib.Control.Monad.Basic

/-! Dispatching the affixes of content sheets. From dice within the doubles a dispatch completes,
unless a condition looks up a list or an object as a name, or an effect comes to write a number to a
die that has no whole part. -/
namespace AffixRules

namespace Outcome

variable {σ α β γ : Type}

/-- The step completes, unless it fails for a reason that `q` tells; the state keeps `p` either
way. -/
structure Obeys (p : σ → Prop) (q : Failure → σ → Prop) (o : Outcome σ α) : Prop where
  keeps : p o.state
  completes : (∃ a, o.answer = .ok a) ∨ ∃ e, o.answer = .error e ∧ q e o.state

variable {p : σ → Prop} {q r : Failure → σ → Prop} {o : Outcome σ α} {s : σ}

theorem obeys_done {a : α} (h : p s) : Obeys p q (done a s) := ⟨h, .inl ⟨a, rfl⟩⟩

theorem obeys_failed {e : Failure} (h : p s) (he : q e s) :
    Obeys p q (failed e s : Outcome σ α) :=
  ⟨h, .inr ⟨e, rfl, he⟩⟩

theorem Obeys.imp (h : Obeys p q o) (hqr : ∀ e t, q e t → r e t) : Obeys p r o :=
  ⟨h.keeps, h.completes.imp id fun ⟨e, he, hq⟩ => ⟨e, he, hqr e _ hq⟩⟩

theorem Obeys.andThen {next : α → σ → Outcome σ β} (h : Obeys p q o)
    (hn : ∀ a t, o = done a t → p t → Obeys p q (next a t)) : Obeys p q (o.andThen next) := by
  obtain ⟨answer, t⟩ := o
  obtain ⟨hp, ⟨a, rfl⟩ | ⟨e, rfl, he⟩⟩ := h
  · exact hn a t rfl hp
  · exact obeys_failed hp he

theorem Obeys.map (h : Obeys p q o) (f : α → β) : Obeys p q (o.map f) := by
  rw [← andThen_done_eq_map]
  exact h.andThen fun _ _ _ ht => obeys_done ht

/-- It is enough to look at each step after those before it have succeeded. -/
theorem obeys_forEach {step : γ → σ → Outcome σ Unit} {cs : List γ}
    (h : ∀ before c rest, cs = before ++ c :: rest → ∀ t, p t →
      forEach step before s = done () t → Obeys p q (step c t)) (hs : p s) :
    Obeys p q (forEach step cs s) := by
  -- A step of the tail comes after the first step and those of the tail before it.
  induction cs generalizing s with
  | nil => exact obeys_done hs
  | cons c cs ih =>
    refine (h [] c cs rfl s hs rfl).andThen fun _ t hstep ht => ih ?_ ht
    intro before d rest hsplit u hu hrun
    refine h (c :: before) d rest (by rw [hsplit]; rfl) u hu ?_
    simp only [forEach, hstep, andThen_done]
    exact hrun

end Outcome

/-- The values of the dice lie within the doubles. -/
def Tray.InRange (reached : DieId → Prop) (t : Tray) : Prop :=
  ∀ i, reached i → HasDouble (t.get i).value

def Board.InRange (reached : DieId → Prop) (b : Board) : Prop := b.tray.InRange reached

variable {reached : DieId → Prop}

theorem Tray.InRange.set {t : Tray} (h : t.InRange reached) {d : Die} (hd : HasDouble d.value)
    (i : DieId) : Tray.InRange reached (t.set i d) := by
  intro j hj
  rw [Store.get_set]
  split
  · exact hd
  · exact h j hj

namespace Board.InRange

variable {b : Board} {i : DieId}

theorem writeValue (h : b.InRange reached) {n : Int} (hn : HasDouble n) (i : DieId) :
    (b.writeValue i n).InRange reached :=
  Tray.InRange.set (d := (b.tray.get i).withValue n) h hn i

theorem modifyDie (h : b.InRange reached) (hi : reached i) {f : Die → Die}
    (hf : ∀ d, (f d).value = d.value) : (b.modifyDie i f).InRange reached :=
  Tray.InRange.set h (by rw [hf]; exact h i hi) i

end Board.InRange

namespace Firing

variable (f : Firing)

/-- A number that the effect is to write to a die has no whole part. -/
def Overflows (i : DieId) (e : Failure) (b : Board) : Prop :=
  ∃ amount, f.magnitude b (some i) = .ok amount ∧
    (f.effect.kind = .flatBonus ∧ (∃ before, toDouble (b.tray.get i).value = .ok before ∧
        truncate (before + amount) = .error e) ∨
      f.effect.kind = .setMinimum ∧ truncate amount = .error e)

variable {f} {b : Board} {i : DieId} {q : Failure → Board → Prop}

open Outcome

theorem magnitude_ok (hscene : f.scene.Ordinary) (he : f.effect.Named) (hsource : reached f.source)
    (hb : b.InRange reached) {target? : Option DieId} (ht : ∀ i, target? = some i → reached i) :
    ∃ amount, f.magnitude b target? = .ok amount := by
  have htarget := Subject.ordinary_target fun i hi => hb i (ht i hi)
  have hself : (Subject.die (b.tray.get f.source)).Ordinary := hb f.source hsource
  exact (he.magnitude_answers (p := False) hscene.usedCount hself htarget f.verdict).ok id

theorem flatBonus_obeys (hk : f.effect.kind = .flatBonus)
    (hm : ∃ amount, f.magnitude b (some i) = .ok amount) (hi : reached i)
    (hb : b.InRange reached) :
    (f.flatBonus i b).Obeys (Board.InRange reached) (f.Overflows i) := by
  obtain ⟨amount, hamount⟩ := hm
  obtain ⟨before, hbefore⟩ := hb i hi
  have hadd : (do (b.tray.get i).add (← f.magnitude b (some i))) =
      (truncate (before + amount)).map (b.tray.get i).withValue := by
    rw [hamount]
    change (toDouble (b.tray.get i).value >>= _) = _
    rw [hbefore]
    rfl
  unfold flatBonus
  rw [hadd]
  cases hsum : truncate (before + amount) with
  | error e => exact obeys_failed hb ⟨amount, hamount, .inl ⟨hk, before, hbefore, hsum⟩⟩
  | ok n => exact obeys_done (hb.writeValue (toDouble_of_truncate hsum) i)

theorem setMinimum_obeys (hk : f.effect.kind = .setMinimum)
    (hm : ∃ amount, f.magnitude b (some i) = .ok amount) (hb : b.InRange reached) :
    (f.setMinimum i b).Obeys (Board.InRange reached) (f.Overflows i) := by
  obtain ⟨amount, hamount⟩ := hm
  have hset : (do truncate (← f.magnitude b (some i))) = truncate amount := by
    rw [hamount]
    rfl
  unfold setMinimum
  rw [hset]
  cases hleast : truncate amount with
  | error e => exact obeys_failed hb ⟨amount, hamount, .inr ⟨hk, hleast⟩⟩
  | ok least =>
    refine obeys_done ?_
    split
    · exact hb.writeValue (toDouble_of_truncate hleast) i
    · exact hb

theorem retag_obeys {tag : Label} (ht : tag.isName) {change : Die → Die}
    (hc : ∀ d, (change d).value = d.value) (hi : reached i) (hb : b.InRange reached) :
    (retag tag change i b).Obeys (Board.InRange reached) q := by
  unfold retag
  rw [if_pos ht]
  exact obeys_done (hb.modifyDie hi hc)

theorem hit_obeys (hscene : f.scene.Ordinary) (he : f.effect.Named) (hsource : reached f.source)
    (hi : reached i) (hb : b.InRange reached) :
    (f.hit i b).Obeys (Board.InRange reached) (f.Overflows i) := by
  have hm : ∃ amount, f.magnitude b (some i) = .ok amount :=
    magnitude_ok hscene he hsource hb fun j hj => by cases hj; exact hi
  unfold hit
  split
  next hk => exact flatBonus_obeys hk hm hi hb
  next hk => exact setMinimum_obeys hk hm hb
  next tag hk hp =>
    exact retag_obeys (he.tag tag hp) (fun d => Die.value_of_plain (d.addTag_plain tag)) hi hb
  next tag hk hp => exact retag_obeys (he.tag tag hp) (fun _ => rfl) hi hb
  next => exact obeys_done (hb.modifyDie hi fun _ => rfl)
  next => exact obeys_done hb
  next => exact obeys_done hb

theorem emitModifier_obeys {t : ModifierTemplate} {target? : Option DieId}
    (hm : ∃ amount, f.magnitude b target? = .ok amount) (hb : b.InRange reached) :
    (f.emitModifier t target? b).Obeys (Board.InRange reached) q := by
  obtain ⟨amount, hamount⟩ := hm
  unfold emitModifier
  rw [hamount]
  exact obeys_done hb

theorem apply_obeys (hscene : f.scene.Ordinary) (he : f.effect.Named) (hsource : reached f.source)
    {targets : List DieId} (ht : ∀ i ∈ targets, reached i) (hb : b.InRange reached) :
    (f.apply targets b).Obeys (Board.InRange reached)
      (fun e c => ∃ i ∈ targets, f.Overflows i e c) := by
  have mem {before : List DieId} {i : DieId} {rest : List DieId}
      (hs : targets = before ++ i :: rest) : i ∈ targets := by simp [hs]
  have hhits : (Outcome.forEach f.hit targets b).Obeys (Board.InRange reached)
      (fun e c => ∃ i ∈ targets, f.Overflows i e c) := by
    refine obeys_forEach (fun before i rest hs c hc _ => ?_) hb
    exact (hit_obeys hscene he hsource (ht i (mem hs)) hc).imp fun e d hd => ⟨i, mem hs, hd⟩
  have hmodifiers (t : ModifierTemplate) :
      (if t.filter = .single then Outcome.forEach (fun i => f.emitModifier t (some i)) targets b
        else f.emitModifier t none b).Obeys (Board.InRange reached)
        (fun e c => ∃ i ∈ targets, f.Overflows i e c) := by
    split
    · refine obeys_forEach (fun before i rest hs c hc _ => ?_) hb
      exact emitModifier_obeys (magnitude_ok hscene he hsource hc fun j hj => by
        cases hj
        exact ht i (mem hs)) hc
    · exact emitModifier_obeys (magnitude_ok hscene he hsource hb fun _ hj => by cases hj) hb
  unfold apply
  cases f.effect.kind with
  | leechHeal =>
    cases f.effect.payload with
    | leech percent => exact obeys_done hb
    | _ => exact obeys_done hb
  | destroySelf => exact obeys_done hb
  | createCombatModifier => exact hmodifiers _
  | _ => exact hhits

end Firing

namespace Stage

variable (g : Stage) (source : DieId) (a : Affix) (b : Board)

/-- An effect of the affix that fires: its verdict, its targets, and the board that it finds once the
effects before it are done. -/
inductive Fires : Effect → Verdict → List DieId → Board → Prop
  | primary {v : Verdict} (hv : Condition.evaluate? a.condition? (g.view source b) = .ok v)
    (hopen : v.blocked = false) :
    Fires a.effect v (b.tray.targets g.hand source a.selector) b
  | part {before rest : List SubEffect} {s : SubEffect} (hs : a.subEffects = before ++ s :: rest)
    {parent : Verdict} (hparent : Condition.evaluate? a.condition? (g.view source b) = .ok parent)
    {fired : Bool} {c : Board}
    (hbefore : g.applyEffects source { a with subEffects := before } parent b = .done fired c)
    {v : Verdict} (hv : s.verdict parent (g.view source c) = .ok v) (hopen : v.blocked = false) :
    Fires s.toEffect v
      (g.targetsOf source s (b.tray.targets g.hand source a.selector) c.tray) c

/-- Why the dispatch of an affix fails, and with which board: a condition looks up what is no name, or
an effect that fires has no number to write to one of its targets. -/
inductive Stops : Failure → Board → Prop
  | malformed {c : Condition} (hc : c ∈ a.conditions) (hn : c.wellNamed = false) {d : Board}
    (he : c.evaluate (g.view source d) = .error .notAName) : Stops .notAName d
  | overflow {effect : Effect} {v : Verdict} {targets : List DieId} {c : Board}
    (hf : Fires g source a b effect v targets c) {i : DieId} (hi : i ∈ targets) {e : Failure}
    {d : Board} (ho : (⟨g.scene, source, a.name, effect, v⟩ : Firing).Overflows i e d) : Stops e d

/-- An ordinary scene, with the source and the hand among the dice reached. -/
structure Sound (reached : DieId → Prop) : Prop where
  scene : g.scene.Ordinary
  source : reached source
  hand : ∀ i ∈ g.hand, reached i

variable {g source a b} {q : Failure → Board → Prop}

open Outcome

theorem Sound.view (hg : g.Sound source reached) (hb : b.InRange reached) :
    (g.view source b).Ordinary where
  scene := hg.scene
  subject := hb source hg.source
  related d hd := by
    obtain ⟨i, hi, rfl⟩ := List.mem_map.mp hd
    exact hb i (hg.hand i hi)

theorem Sound.targets (hg : g.Sound source reached) (selector : TargetSelector) (t : Tray) :
    ∀ i ∈ t.targets g.hand source selector, reached i := fun i hi =>
  (g.reaches_of_mem_targets hi).elim (fun h => h ▸ hg.source) fun h => hg.hand i h.1

theorem Sound.targetsOf (hg : g.Sound source reached) (s : SubEffect) {given : List DieId}
    (ht : ∀ i ∈ given, reached i) (t : Tray) : ∀ i ∈ g.targetsOf source s given t, reached i := by
  unfold Stage.targetsOf
  cases s.target? with
  | none => exact ht
  | some selector => exact hg.targets selector t

theorem applyEffect_obeys (hg : g.Sound source reached) (name : Label)
    {effect : Effect} (he : effect.Named) (v : Verdict) {targets : List DieId}
    (ht : ∀ i ∈ targets, reached i) (hb : b.InRange reached) :
    (g.applyEffect source name effect v targets b).Obeys (Board.InRange reached)
      (fun e c => v.blocked = false ∧
        ∃ i ∈ targets, (⟨g.scene, source, name, effect, v⟩ : Firing).Overflows i e c) := by
  let f : Firing := ⟨g.scene, source, name, effect, v⟩
  unfold applyEffect
  split
  · exact obeys_done hb
  next hv =>
    have hopen : v.blocked = false := by simpa using hv
    refine Obeys.andThen ?_ fun _ _ _ hc => obeys_done hc
    exact (Firing.apply_obeys (f := f) hg.scene he hg.source ht hb).imp fun e c ho => ⟨hopen, ho⟩

theorem applySubEffects_obeys {name : Label} {parent : Verdict} {targets : List DieId}
    {subs : List SubEffect}
    (h : ∀ before s rest, subs = before ++ s :: rest → ∀ fired c, c.InRange reached →
      g.applySubEffects source name parent targets before b = .done fired c →
      (g.applySubEffect source name parent targets s c).Obeys (Board.InRange reached) q)
    (hb : b.InRange reached) :
    (g.applySubEffects source name parent targets subs b).Obeys (Board.InRange reached) q := by
  induction subs generalizing b with
  | nil => exact obeys_done hb
  | cons s rest ih =>
    rw [applySubEffects_cons]
    refine (h [] s rest rfl false b hb rfl).andThen fun fired c hfirst hc => (ih ?_ hc).map _
    intro before s' rest' hs any d hd hbefore
    refine h (s :: before) s' rest' (by rw [hs]; rfl) (fired || any) d hd ?_
    rw [applySubEffects_cons, hfirst, andThen_done, hbefore]
    rfl

theorem evaluate_stops (hg : g.Sound source reached) {d : Board} (hd : d.InRange reached)
    {c : Condition} (hc : c ∈ a.conditions) {e : Failure}
    (he : c.evaluate (g.view source d) = .error e) : g.Stops source a b e d := by
  obtain ⟨v, hv⟩ | ⟨hv, hn⟩ := Condition.evaluate_answers (c := c) (hg.view hd)
  · cases hv.symm.trans he
  · cases hv.symm.trans he
    exact .malformed hc hn hv

theorem applySubEffect_obeys (ha : a.Loaded) (hg : g.Sound source reached) {s : SubEffect}
    (hs : s ∈ a.subEffects) {parent : Verdict}
    {targets : List DieId} (ht : ∀ i ∈ targets, reached i) {d : Board} (hd : d.InRange reached)
    (hf : ∀ v, s.verdict parent (g.view source d) = .ok v → v.blocked = false →
      Fires g source a b s.toEffect v (g.targetsOf source s targets d.tray) d) :
    (g.applySubEffect source a.name parent targets s d).Obeys (Board.InRange reached)
      (g.Stops source a b) := by
  rw [applySubEffect_eq]
  cases hv : s.verdict parent (g.view source d) with
  | error e =>
    cases hown : s.condition? with
    | none => simp [SubEffect.verdict, hown] at hv
    | some c =>
      simp only [SubEffect.verdict, hown] at hv
      exact obeys_failed hd
        (evaluate_stops hg hd (Affix.mem_conditions_of_subEffect hs hown) hv)
  | ok v =>
    have heffect := applyEffect_obeys hg a.name (ha.subEffect_named hs) v
      (hg.targetsOf s ht d.tray) hd
    exact heffect.imp fun e c ⟨hopen, i, hi, ho⟩ => .overflow (hf v hv hopen) hi ho

/-- The dispatch of a loaded affix leaves the dice within the doubles, and it fails only for a cause
that its content gives. -/
theorem applyAffix_obeys (ha : a.Loaded) (hg : g.Sound source reached) (hb : b.InRange reached) :
    (g.applyAffix source a b).Obeys (Board.InRange reached) (g.Stops source a b) := by
  have ht := hg.targets a.selector b.tray
  rw [applyAffix_eq]
  cases hparent : Condition.evaluate? a.condition? (g.view source b) with
  | error e =>
    cases hc : a.condition? with
    | none => simp [hc, Condition.evaluate?] at hparent
    | some c =>
      rw [hc] at hparent
      exact obeys_failed hb
        (evaluate_stops hg hb (Affix.mem_conditions_of_own hc) hparent)
  | ok parent =>
    have hprimary : (g.applyEffect source a.name a.effect parent
        (b.tray.targets g.hand source a.selector) b).Obeys (Board.InRange reached)
        (g.Stops source a b) :=
      (applyEffect_obeys hg a.name ha.effect_named parent ht hb).imp
        fun e c ⟨hopen, i, hi, ho⟩ => .overflow (.primary hparent hopen) hi ho
    have hall : (g.applyEffects source a parent b).Obeys (Board.InRange reached)
        (g.Stops source a b) := by
      unfold applyEffects
      refine hprimary.andThen fun fired c hfirst hc => ?_
      refine (applySubEffects_obeys (fun before s rest hs any d hd hbefore => ?_) hc).map _
      have hdone : g.applyEffects source { a with subEffects := before } parent b =
          .done (fired || any) d := by
        simp only [applyEffects, hfirst, andThen_done, hbefore]
        rfl
      exact applySubEffect_obeys ha hg (by simp [hs]) ht hd
        fun v hv hopen => .part hs hparent hdone hv hopen
    refine hall.andThen fun fired d _ hd => obeys_done ?_
    cases fired <;> exact hd

end Stage

namespace Die

variable {d e : Die}

theorem affixesOn_of_outline (h : d.outline = e.outline) (trigger : Trigger) :
    d.affixesOn trigger = e.affixesOn trigger := by
  change d.outline.affixesOn trigger = e.outline.affixesOn trigger
  rw [h]

end Die

namespace Stage

variable (g : Stage) (trigger : Trigger) (source? : Option DieId) (t : Tray)

/-- An affix that a trigger calls, with its die and the board that it finds once those before it are
done. -/
inductive Calls : DieId → Affix → Board → Prop
  | intro {before after : List DieId} {source : DieId}
    (hs : g.sources source? t = before ++ source :: after) {c : Board}
    (hbefore : Outcome.forEach (g.fireDie trigger) before { tray := t } = .done () c)
    {done rest : List Affix} {a : Affix}
    (ha : (t.get source).affixesOn trigger = .ok (done ++ a :: rest)) {b : Board}
    (hdone : Outcome.forEach (g.applyAffix source) done c = .done () b) : Calls source a b

variable {g trigger source? t}

open Outcome Board

theorem outline_eq_of_fireDie {before : List DieId} {b c : Board}
    (h : Outcome.forEach (g.fireDie trigger) before b = .done () c) (i : DieId) :
    (c.tray.get i).outline = (b.tray.get i).outline := by
  have hbecomes : Becomes (fun _ => True) b (Outcome.forEach (g.fireDie trigger) before b).state :=
    becomes_forEach fun source _ _ _ => g.fireDie_becomes trigger source fun _ _ => trivial
  rw [h] at hbecomes
  exact hbecomes.outline_eq i

/-- A trigger over loaded dice leaves them within the doubles, and it fails only where one of the
affixes that it calls does. -/
theorem fire_obeys (hg : ∀ i ∈ g.sources source? t, g.Sound i reached)
    (hd : ∀ i ∈ g.sources source? t, (t.get i).Loaded) (ht : t.InRange reached) :
    (g.fire trigger source? t).Obeys (Tray.InRange reached) fun e u =>
      ∃ source a b c, g.Calls trigger source? t source a b ∧ g.Stops source a b e c ∧ c.tray = u := by
  have hall : (Outcome.forEach (g.fireDie trigger) (g.sources source? t) { tray := t }).Obeys
      (Board.InRange reached) fun e c =>
        ∃ source a b, g.Calls trigger source? t source a b ∧ g.Stops source a b e c := by
    refine obeys_forEach (fun before source after hs c hc hbefore => ?_) ht
    have hmem : source ∈ g.sources source? t := by simp [hs]
    obtain ⟨as, has, hloaded⟩ := (hd source hmem).affixesOn_eq trigger
    -- The dice before it may have written this die, but not its affixes.
    have hkept : (c.tray.get source).affixesOn trigger = .ok as :=
      (Die.affixesOn_of_outline (outline_eq_of_fireDie hbefore source) trigger).trans has
    unfold fireDie
    rw [hkept]
    refine obeys_forEach (fun done a rest ha b hb hdone => ?_) hc
    have hcalls : g.Calls trigger source? t source a b := .intro hs hbefore (ha ▸ has) hdone
    exact (applyAffix_obeys (hloaded a (by simp [ha])) (hg source hmem) hb).imp
      fun e d hstops => ⟨source, a, b, hcalls, hstops⟩
  refine ⟨hall.keeps, hall.completes.imp ?_ ?_⟩
  · rintro ⟨u, hu⟩
    exact ⟨_, congrArg (Except.map _) hu⟩
  · rintro ⟨e, he, source, a, b, hcalls, hstops⟩
    exact ⟨e, congrArg (Except.map _) he, source, a, b, _, hcalls, hstops, rfl⟩

end Stage

/-- In an ordinary context, evaluation and dispatch of loaded affixes complete, and what their content
leaves open falls back: a condition to a pass or to a scale of zero, before inversion, and a value
source to zero. They fail for two causes only: a condition looks up a list or an object as a name, or
an effect that fires has a number without a whole part to write to a die. -/
theorem loaded_content_completes (context : Context) (hcontext : context.Ordinary) :
    (∀ (c : Condition) (subject : Subject) (related? : Option (List Die)) (index? : Option Int),
      subject.Ordinary → (∀ ds, related? = some ds → ∀ d ∈ ds, HasDouble d.value) →
      let v := View.ofContext context subject related? index?
      Answers (c.wellNamed = false) (c.evaluate v) ∧
        (c.Unresolved v →
          c.evaluate v = .ok (if c.invert then c.fallback.flipped else c.fallback))) ∧
      (∀ (e : Effect) (self target : Subject), e.Unresolved context.toScene self target →
        e.base context.toScene self target = .ok 0) ∧
      (∀ (a : Affix) (given : Subject), a.Loaded → given.Ordinary →
        Answers a.Malformed (a.valueIn context given) ∧
          Answers a.Malformed (a.firedParts context given)) ∧
      (∀ as : List Affix, (∀ a ∈ as, a.Loaded) →
        Answers (∃ a ∈ as, a.Malformed) (contributions context as)) ∧
      ∀ hand : List DieId,
        let g : Stage := ⟨context.toScene, hand⟩
        (∀ (source : DieId) (a : Affix) (b : Board), a.Loaded →
          let inPlay := fun i => i = source ∨ i ∈ hand
          b.InRange inPlay →
            (g.applyAffix source a b).Obeys (Board.InRange inPlay) (g.Stops source a b)) ∧
        ∀ (trigger : Trigger) (source? : Option DieId) (t : Tray),
          (∀ i ∈ g.sources source? t, (t.get i).Loaded) →
          let inPlay := fun i => source? = some i ∨ i ∈ hand
          t.InRange inPlay →
            (g.fire trigger source? t).Obeys (Tray.InRange inPlay) fun e u =>
              ∃ source a b c, g.Calls trigger source? t source a b ∧ g.Stops source a b e c ∧
                c.tray = u := by
  refine ⟨fun c subject related? index? hs hr => ?_, fun e self target => Effect.base_of_unresolved,
    fun a given ha hg => ⟨Affix.valueIn_answers ha hcontext hg, Affix.firedParts_answers ha hcontext hg⟩,
    fun as has => contributions_answers hcontext has, fun hand => ⟨?_, ?_⟩⟩
  · have hv := hcontext.view hs related? hr index?
    exact ⟨Condition.evaluate_answers hv, Condition.evaluate_of_unresolved hv⟩
  · intro source a b ha inPlay hb
    exact Stage.applyAffix_obeys ha ⟨hcontext.scene, .inl rfl, fun i hi => .inr hi⟩ hb
  · intro trigger source? t hd inPlay ht
    refine Stage.fire_obeys (fun i hi => ⟨hcontext.scene, ?_, fun j hj => .inr hj⟩) hd ht
    cases source? with
    | none => exact .inr (List.mem_filter.mp hi).1
    | some j => exact .inl (congrArg some (List.mem_singleton.mp hi).symm)

/-- Finite numbers overflow: a share of the neighbor's value that is nearly as large as doubles get.
The condition asks for an unknown stat and passes. -/
theorem loaded_content_completes_but_for_overflow :
    let surge : AffixSheet :=
      { id := "surge", name := "Surge", trigger := .onRoll, kind := .flatBonus
        source := .neighborPercent, selector := .right, value := 1e308
        condition? := some { kind := .statAbove, parameters := [("stat", .text "luck")] } }
    let t : Tray :=
      { cells := [(0, { slot := 0, value := 3, inherent := [surge.toAffix] }),
          (1, { slot := 1, value := 6 })]
        next := 2 }
    let context : Context := { hand := t.dice [0, 1] }
    let g : Stage := ⟨context.toScene, [0, 1]⟩
    let o := g.fire .onRoll none t
    context.Ordinary ∧ o.answer = .error .infinite ∧
      ∃ source a b c, g.Calls .onRoll none t source a b ∧ g.Stops source a b .infinite c ∧
        c.tray = o.state := by
  intro surge t context g o
  have hdice : ∀ i ∈ [0, 1], HasDouble (t.get i).value ∧ (t.get i).Loaded := by
    intro i hi
    obtain rfl | rfl : i = 0 ∨ i = 1 := by simpa using hi
    · exact ⟨⟨3, by decide +kernel⟩, rfl, fun a ha => ⟨surge, (List.mem_singleton.mp ha).symm⟩⟩
    · exact ⟨⟨6, by decide +kernel⟩, rfl, fun a ha => by cases ha⟩
  have hcontext : context.Ordinary :=
    { scene := { className := ⟨"", rfl⟩, usedCount := ⟨0, by decide +kernel⟩ }
      hand := by
        intro d hd
        obtain ⟨i, hi, rfl⟩ := List.mem_map.mp hd
        exact (hdice i hi).1 }
  have hfails : o.answer = .error .infinite := by decide +kernel
  obtain ⟨-, -, -, -, hdispatch⟩ := loaded_content_completes context hcontext
  obtain ⟨-, ⟨r, hr⟩ | ⟨e, he, hcause⟩⟩ := (hdispatch [0, 1]).2 .onRoll none t
    (fun i hi => (hdice i (List.mem_filter.mp hi).1).2)
    fun i hi => (hdice i (hi.resolve_left (by simp))).1
  · cases hr.symm.trans hfails
  · cases he.symm.trans hfails
    exact ⟨hcontext, hfails, hcause⟩

/-- The model of content accepts a list as a tag, and looking it up stops the dispatch. -/
theorem list_tag_stops_dispatch :
    let document : Document := .object
      [("id", .text "zeal"), ("name", .text "Zeal"),
        ("condition", .object
          [("kind", .text "has_tag"), ("data", .object [("tag", .list [.text "fire"])])])]
    let zeal : AffixSheet :=
      { id := "zeal", name := "Zeal"
        condition? := some { kind := .hasTag, parameters := [("tag", .list [.text "fire"])] } }
    let t : Tray := { cells := [(0, { slot := 0, value := 3 })], next := 1 }
    let g : Stage := { scene := {}, hand := [0] }
    AffixSheet.ofDocument document = .ok zeal ∧
      (g.applyAffix 0 zeal.toAffix { tray := t }).answer = .error .notAName := by
  decide +kernel

end AffixRules
