import AffixRules.Content.Sheet
import AffixRules.Proofs.Condition.Fallback

/-! Affixes that content sheets describe. Their names are texts, so that only the parameters of their
conditions can be malformed; else an evaluator answers. -/
namespace AffixRules

structure Context.Ordinary (c : Context) : Prop where
  scene : c.toScene.Ordinary
  hand : ∀ d ∈ c.hand, HasDouble d.value

namespace Context.Ordinary

variable {c : Context} {subject : Subject}

theorem view (h : c.Ordinary) (hs : subject.Ordinary) (related? : Option (List Die))
    (hr : ∀ ds, related? = some ds → ∀ d ∈ ds, HasDouble d.value) (index? : Option Int) :
    (View.ofContext c subject related? index?).Ordinary where
  scene := h.scene
  subject := hs
  related := by
    cases related? with
    | none => exact h.hand
    | some ds => exact hr ds rfl

theorem view_in_hand (h : c.Ordinary) (hs : subject.Ordinary) :
    (View.ofContext c subject none none).Ordinary :=
  h.view hs none (fun _ hr => by cases hr) none

end Context.Ordinary

/-- The names that an effect looks up are neither lists nor objects. -/
structure Effect.Named (e : Effect) : Prop where
  sourceStat : e.sourceStat.isName
  tag : ∀ tag, e.payload = .tag tag → tag.isName

namespace Effect.Named

variable {e : Effect} {scene : Scene} {self target : Subject} {p : Prop}

theorem magnitude_answers (he : e.Named) (hn : HasDouble scene.usedCount) (hself : self.Ordinary)
    (htarget : target.Ordinary) (v : Verdict) : Answers p (e.magnitude scene self target v) := by
  unfold magnitude
  split
  · exact answers_ok _
  · exact (base_answers hn hself htarget he.sourceStat).map _

theorem fired_answers (he : e.Named) (hn : HasDouble scene.usedCount) (hself : self.Ordinary)
    (v : Verdict) (selector : TargetSelector) (index? : Option Nat) :
    Answers p (e.fired scene self v selector index?) := by
  unfold fired
  split
  · exact answers_ok _
  · exact (he.magnitude_answers hn hself Subject.ordinary_none v).map _

end Effect.Named

theorem PayloadSheet.isName_of_payload {s : PayloadSheet} {kind : EffectKind} {tag : Label}
    (h : s.payload kind = .tag tag) : tag.isName := by
  have given {α : Type} {x? : Option α} {f : α → Payload} (hx : x?.elim .nothing f = .tag tag) :
      ∃ x, f x = .tag tag := by
    cases x? with
    | none => cases hx
    | some x => exact ⟨x, hx⟩
  cases kind with
  | addTag | removeTag =>
    obtain ⟨x, hx⟩ := given h
    cases hx
    rfl
  | setElement | leechHeal | grantAction =>
    obtain ⟨x, hx⟩ := given h
    cases hx
  | _ => cases h

namespace Affix

/-- The affix is described by a content sheet. -/
def Loaded (a : Affix) : Prop := ∃ s : AffixSheet, s.toAffix = a

/-- The conditions of the affix, its own first. -/
def conditions (a : Affix) : List Condition :=
  a.condition?.toList ++ a.subEffects.filterMap (·.condition?)

/-- A condition of the affix looks up what is no name. -/
def Malformed (a : Affix) : Prop := ∃ c ∈ a.conditions, c.wellNamed = false

variable {a : Affix} {s : SubEffect} {c : Condition}

theorem mem_conditions_of_own (h : a.condition? = some c) : c ∈ a.conditions :=
  List.mem_append_left _ (Option.mem_toList.mpr h)

theorem mem_conditions_of_subEffect (hs : s ∈ a.subEffects) (h : s.condition? = some c) :
    c ∈ a.conditions :=
  List.mem_append_right _ (List.mem_filterMap.mpr ⟨s, hs, h⟩)

theorem Loaded.effect_named (h : a.Loaded) : a.effect.Named := by
  obtain ⟨s, rfl⟩ := h
  exact ⟨rfl, fun _ => PayloadSheet.isName_of_payload⟩

theorem Loaded.subEffect_named (h : a.Loaded) (hs : s ∈ a.subEffects) : s.toEffect.Named := by
  obtain ⟨sheet, rfl⟩ := h
  obtain ⟨part, -, rfl⟩ := List.mem_map.mp hs
  exact ⟨rfl, fun _ => PayloadSheet.isName_of_payload⟩

theorem Loaded.subject_ordinary (h : a.Loaded) {given : Subject} (hg : given.Ordinary) :
    (a.subject given).Ordinary := by
  obtain ⟨sheet, rfl⟩ := h
  unfold subject
  cases given with
  | none => dsimp only; split <;> trivial
  | _ => exact hg

variable {context : Context} {given self : Subject}

theorem verdictIn_answers (ha : a.Loaded) (hc : context.Ordinary) (hg : given.Ordinary) :
    Answers a.Malformed (a.verdictIn context given) := by
  have hv := hc.view_in_hand (ha.subject_ordinary hg)
  unfold verdictIn Condition.evaluateIn
  cases h : a.condition? with
  | none => exact answers_ok _
  | some c =>
    exact (Condition.evaluate_answers hv).imp fun hn => ⟨c, mem_conditions_of_own h, hn⟩

theorem valueIn_answers (ha : a.Loaded) (hc : context.Ordinary) (hg : given.Ordinary) :
    Answers a.Malformed (a.valueIn context given) :=
  (verdictIn_answers ha hc hg).bind fun v =>
    ha.effect_named.magnitude_answers hc.scene.usedCount (ha.subject_ordinary hg)
      Subject.ordinary_none v

theorem subEffectParts_answers (ha : a.Loaded) (hc : context.Ordinary) (hself : self.Ordinary)
    (parent : Verdict) (selector : TargetSelector) {subs : List SubEffect}
    (hs : ∀ s ∈ subs, s ∈ a.subEffects) (i : Nat) :
    Answers a.Malformed (subEffectParts context self parent selector i subs) := by
  induction subs generalizing i with
  | nil => exact answers_ok _
  | cons s rest ih =>
    obtain ⟨hmem, hrest⟩ := List.forall_mem_cons.mp hs
    have hv := hc.view_in_hand hself
    have hverdict : Answers a.Malformed
        (s.verdict parent (.ofContext context self none none)) := by
      unfold SubEffect.verdict
      cases h : s.condition? with
      | none => exact answers_ok _
      | some c =>
        exact (Condition.evaluate_answers hv).imp fun hn =>
          ⟨c, mem_conditions_of_subEffect hmem h, hn⟩
    refine hverdict.bind fun v => ?_
    refine ((ha.subEffect_named hmem).fired_answers hc.scene.usedCount hself v _ _).bind fun _ => ?_
    exact (ih hrest (i + 1)).bind fun _ => answers_ok _

theorem firedParts_answers (ha : a.Loaded) (hc : context.Ordinary) (hg : given.Ordinary) :
    Answers a.Malformed (a.firedParts context given) := by
  have hself : (a.subject given).Ordinary := ha.subject_ordinary hg
  refine (verdictIn_answers ha hc hg).bind fun v => ?_
  refine (ha.effect_named.fired_answers hc.scene.usedCount hself v _ _).bind fun _ => ?_
  exact (subEffectParts_answers ha hc hself v a.selector (fun _ hs => hs) 0).bind fun _ =>
    answers_ok _

end Affix

namespace Die

/-- The affixes of the die are all found, and content sheets describe them. -/
structure Loaded (d : Die) : Prop where
  complete : d.incomplete = false
  affixes : ∀ a ∈ d.inherent ++ d.granted, a.Loaded

theorem Loaded.affixesOn_eq {d : Die} (h : d.Loaded) (trigger : Trigger) :
    ∃ as, d.affixesOn trigger = .ok as ∧ ∀ a ∈ as, a.Loaded := by
  refine ⟨_, by simp only [affixesOn, Die.affixes, h.complete]; rfl, fun a ha => ?_⟩
  exact h.affixes a (List.mem_filter.mp ha).1

end Die

theorem contributions_answers {context : Context} (hc : context.Ordinary) {as : List Affix}
    (ha : ∀ a ∈ as, a.Loaded) :
    Answers (∃ a ∈ as, a.Malformed) (contributions context as) := by
  induction as with
  | nil => exact answers_ok _
  | cons a as ih =>
    obtain ⟨hfirst, hrest⟩ := List.forall_mem_cons.mp ha
    have himp : a.Malformed → ∃ a' ∈ a :: as, a'.Malformed := fun h => ⟨a, by simp, h⟩
    have hall : Answers (∃ a' ∈ a :: as, a'.Malformed) (contributions context as) :=
      (ih hrest).imp fun ⟨a', hmem, h⟩ => ⟨a', List.mem_cons_of_mem _ hmem, h⟩
    refine ((Affix.verdictIn_answers hfirst hc Subject.ordinary_none).imp himp).bind fun v => ?_
    split
    · exact hall
    · refine (hfirst.effect_named.magnitude_answers hc.scene.usedCount
        (hfirst.subject_ordinary Subject.ordinary_none) Subject.ordinary_none v).bind fun _ => ?_
      exact hall.bind fun _ => answers_ok _

end AffixRules
