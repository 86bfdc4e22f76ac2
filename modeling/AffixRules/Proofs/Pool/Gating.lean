import AffixRules.Pool.Compound
import Mathlib.Control.Monad.Basic
import Mathlib.Data.List.Basic

/-! How an affix expands. The primary effect comes first, the sub-effects follow in order, each under
its own gate or that of the affix. What has a gate of its own does not depend on that of the affix. -/
namespace AffixRules

namespace Effect

/-- The entry of an effect with the value of its source, under its gate. -/
def entry (e : Effect) (x : Float) (w : Verdict) (target : TargetSelector) (index? : Option Nat) :
    FiredPart :=
  ⟨e.kind, x * w.multiplier, e.payload, target, index?⟩

/-- The value source yields a value without a target. -/
def Yields (e : Effect) (scene : Scene) (self : Subject) : Prop :=
  ∃ x, e.base scene self .none = .ok x

variable {e : Effect} {scene : Scene} {self : Subject} {w : Verdict} {target : TargetSelector}
  {index? : Option Nat} {parts : List FiredPart}

theorem fired_of_blocked (hw : w.blocked = true) :
    e.fired scene self w target index? = .ok [] := by
  simp [fired, hw]

theorem fired_of_open (hw : w.blocked = false) :
    e.fired scene self w target index? =
      (e.base scene self .none).map fun x => [e.entry x w target index?] := by
  simp only [fired, magnitude, hw, Bool.false_eq_true, if_false]
  cases e.base scene self .none <;> rfl

end Effect

/-- The entries of the sub-effects from a place on. -/
inductive Gated (context : Context) (self : Subject) (parent : Verdict) (selector : TargetSelector) :
    Nat → List SubEffect → List FiredPart → Prop
  | nil {i : Nat} : Gated context self parent selector i [] []
  | blocked {i : Nat} {s : SubEffect} {subs : List SubEffect} {parts : List FiredPart} {w : Verdict}
    (hs : s.verdict parent (.ofContext context self none none) = .ok w) (hw : w.blocked = true)
    (hrest : Gated context self parent selector (i + 1) subs parts) :
    Gated context self parent selector i (s :: subs) parts
  | fires {i : Nat} {s : SubEffect} {subs : List SubEffect} {parts : List FiredPart} {w : Verdict}
    (hs : s.verdict parent (.ofContext context self none none) = .ok w) (hw : w.blocked = false)
    {x : Float} (hx : s.base context.toScene self .none = .ok x)
    (hrest : Gated context self parent selector (i + 1) subs parts) :
    Gated context self parent selector i (s :: subs)
      (s.entry x w (s.target?.getD selector) (some i) :: parts)

variable {context : Context} {self : Subject} {parent : Verdict} {selector : TargetSelector} {i : Nat}
  {subs : List SubEffect} {parts : List FiredPart}

theorem gated_of_subEffectParts (h : subEffectParts context self parent selector i subs = .ok parts) :
    Gated context self parent selector i subs parts := by
  induction subs generalizing i parts with
  | nil =>
    cases h
    exact .nil
  | cons s rest ih =>
    obtain ⟨w, hs, h⟩ := bind_eq_ok_iff.mp h
    obtain ⟨part, hpart, h⟩ := bind_eq_ok_iff.mp h
    obtain ⟨more, hmore, h⟩ := bind_eq_ok_iff.mp h
    cases h
    cases hw : w.blocked with
    | true =>
      rw [Effect.fired_of_blocked hw] at hpart
      cases hpart
      exact .blocked hs hw (ih hmore)
    | false =>
      rw [Effect.fired_of_open hw] at hpart
      obtain ⟨x, hx, rfl⟩ := map_eq_ok_iff.mp hpart
      exact .fires hs hw hx (ih hmore)

theorem Gated.subEffectParts_eq (h : Gated context self parent selector i subs parts) :
    subEffectParts context self parent selector i subs = .ok parts := by
  induction h with
  | nil => rfl
  | blocked hs hw _ ih =>
    rw [subEffectParts, hs]
    change Effect.fired _ _ _ _ _ _ >>= _ = _
    rw [Effect.fired_of_blocked hw, ih]
    rfl
  | fires hs hw hx _ ih =>
    rw [subEffectParts, hs]
    change Effect.fired _ _ _ _ _ _ >>= _ = _
    rw [Effect.fired_of_open hw, hx, ih]
    rfl

namespace SubEffect

variable {s : SubEffect} {v w : Verdict} {view : View}

theorem verdict_eq : s.verdict v view = s.condition?.elim (.ok v) fun c => c.evaluate view := by
  unfold verdict
  cases s.condition? <;> rfl

theorem verdict_of_inherits (h : s.condition? = none) : s.verdict v view = .ok v := by
  rw [verdict, h]

theorem verdict_of_overrides (h : s.condition?.isSome) : s.verdict v view = s.verdict w view := by
  unfold verdict
  cases hc : s.condition? with
  | none => simp [hc] at h
  | some c => rfl

end SubEffect

theorem exists_gated_iff (selector : TargetSelector) (i : Nat) :
    (∃ parts, Gated context self parent selector i subs parts) ↔
      ∀ s ∈ subs, ∃ w, s.verdict parent (.ofContext context self none none) = .ok w ∧
        (w.blocked = false → s.Yields context.toScene self) := by
  induction subs generalizing i with
  | nil => exact ⟨fun _ s hs => absurd hs List.not_mem_nil, fun _ => ⟨[], .nil⟩⟩
  | cons s rest ih =>
    rw [List.forall_mem_cons, ← ih (i + 1)]
    constructor
    · rintro ⟨parts, h⟩
      cases h with
      | blocked hs hw hrest => exact ⟨⟨_, hs, fun hopen => by simp [hw] at hopen⟩, _, hrest⟩
      | fires hs _ hx hrest => exact ⟨⟨_, hs, fun _ => ⟨_, hx⟩⟩, _, hrest⟩
    · rintro ⟨⟨w, hs, hyields⟩, parts, hrest⟩
      cases hw : w.blocked with
      | true => exact ⟨parts, .blocked hs hw hrest⟩
      | false =>
        obtain ⟨x, hx⟩ := hyields hw
        exact ⟨_, .fires hs hw hx hrest⟩

namespace Gated

theorem index_of_mem (h : Gated context self parent selector i subs parts) :
    ∀ p ∈ parts, ∃ k, k < subs.length ∧ p.index? = some (i + k) := by
  have later {i n : Nat} {p : FiredPart} (h : ∃ k, k < n ∧ p.index? = some (i + 1 + k)) :
      ∃ k, k < n + 1 ∧ p.index? = some (i + k) := by
    obtain ⟨k, hk, hp⟩ := h
    exact ⟨k + 1, by omega, by rw [hp, Nat.add_assoc, Nat.add_comm 1 k]⟩
  induction h with
  | nil => simp
  | blocked _ _ _ ih => exact fun p hp => later (ih p hp)
  | fires _ _ _ _ ih =>
    exact List.forall_mem_cons.mpr ⟨⟨0, by simp, rfl⟩, fun p hp => later (ih p hp)⟩

theorem ordered (h : Gated context self parent selector i subs parts) :
    (parts.filterMap (·.index?)).Pairwise (· < ·) := by
  induction h with
  | nil => exact .nil
  | blocked _ _ _ ih => exact ih
  | fires _ _ _ hrest ih =>
    refine List.pairwise_cons.mpr ⟨fun j hj => ?_, ih⟩
    obtain ⟨p, hp, hj⟩ := List.mem_filterMap.mp hj
    obtain ⟨k, -, hk⟩ := hrest.index_of_mem p hp
    have : some j = some _ := hj.symm.trans hk
    cases this
    omega

theorem index_ne (h : Gated context self parent selector (i + 1) subs parts) :
    ∀ p ∈ parts, p.index? ≠ some i := by
  intro p hp hi
  obtain ⟨k, -, hk⟩ := h.index_of_mem p hp
  rw [hi, Option.some.injEq] at hk
  omega

/-- A sub-effect has an entry if and only if its gate is open, and what entry it has then. -/
theorem entry_iff (h : Gated context self parent selector i subs parts) {k : Nat} {s : SubEffect}
    (hk : subs[k]? = some s) :
    ∃ w, s.verdict parent (.ofContext context self none none) = .ok w ∧
      ((∃ p ∈ parts, p.index? = some (i + k)) ↔ w.blocked = false) ∧
      ∀ p ∈ parts, p.index? = some (i + k) →
        ∃ x, s.base context.toScene self .none = .ok x ∧
          p = s.entry x w (s.target?.getD selector) (some (i + k)) := by
  induction h generalizing k with
  | nil => simp at hk
  | @blocked i t subs parts w ht hw hrest ih =>
    cases k with
    | zero =>
      cases hk
      exact ⟨w, ht, ⟨fun ⟨p, hp, hi⟩ => absurd hi (hrest.index_ne p hp),
        fun hopen => by simp [hw] at hopen⟩, fun p hp hi => absurd hi (hrest.index_ne p hp)⟩
    | succ k =>
      have hshift : i + (k + 1) = i + 1 + k := by omega
      rw [hshift]
      exact ih hk
  | @fires i t subs parts w ht hw x hx hrest ih =>
    cases k with
    | zero =>
      cases hk
      refine ⟨w, ht, ⟨fun _ => hw, fun _ => ⟨_, List.mem_cons_self, rfl⟩⟩, fun p hp hi => ?_⟩
      obtain rfl | hp := List.mem_cons.mp hp
      · exact ⟨x, hx, rfl⟩
      · exact absurd hi (hrest.index_ne p hp)
    | succ k =>
      have hshift : i + (k + 1) = i + 1 + k := by omega
      have hne : some i ≠ some (i + 1 + k) := by simp; omega
      rw [hshift]
      obtain ⟨u, hu, hiff, hall⟩ := ih hk
      refine ⟨u, hu, ?_, fun p hp hi => ?_⟩
      · rw [← hiff, List.exists_mem_cons_iff]
        exact or_iff_right hne
      · obtain rfl | hp := List.mem_cons.mp hp
        · exact absurd hi hne
        · exact hall p hp hi

/-- Under a gate that blocks, the entries are those of the sub-effects with a gate of their own. -/
theorem under_block (h : Gated context self parent selector i subs parts) {own : Nat → Bool}
    (hown : ∀ (k : Nat) (s : SubEffect), subs[k]? = some s → own (i + k) = s.condition?.isSome) :
    Gated context self { blocked := true } selector i subs
      (parts.filter fun p => p.index?.any own) := by
  have later {i : Nat} {s : SubEffect} {subs : List SubEffect}
      (h : ∀ k t, (s :: subs)[k]? = some t → own (i + k) = t.condition?.isSome) :
      ∀ k t, subs[k]? = some t → own (i + 1 + k) = t.condition?.isSome := fun k t ht => by
    rw [← h (k + 1) t ht, Nat.add_assoc, Nat.add_comm 1 k]
  induction h with
  | nil => exact .nil
  | @blocked i s subs parts w hs hw _ ih =>
    have hrest := ih (later hown)
    cases hc : s.condition?.isSome with
    | true => exact .blocked ((SubEffect.verdict_of_overrides hc).trans hs) hw hrest
    | false =>
      exact .blocked (SubEffect.verdict_of_inherits (by simpa using hc)) rfl hrest
  | @fires i s subs parts w hs hw x hx _ ih =>
    have hrest := ih (later hown)
    have hi : own i = s.condition?.isSome := hown 0 s rfl
    rw [List.filter_cons]
    change Gated _ _ _ _ _ _ (if own i = true then _ else _)
    rw [hi]
    cases hc : s.condition?.isSome with
    | true => exact .fires ((SubEffect.verdict_of_overrides hc).trans hs) hw hx hrest
    | false =>
      exact .blocked (SubEffect.verdict_of_inherits (by simpa using hc)) rfl hrest

end Gated

namespace Affix

variable (a : Affix) (context : Context) (given : Subject)

/-- The entry is that of a sub-effect with a gate of its own. -/
def overrides (p : FiredPart) : Bool :=
  p.index?.any fun i => a.subEffects[i]?.any (·.condition?.isSome)

/-- What an affix expands to under the verdict of its condition: an entry of the primary effect, if
there is one, and those of the sub-effects, each under the verdict of its own condition or else that
of the affix. -/
structure Expansion (v : Verdict) (first? : Option FiredPart) (rest : List FiredPart) : Prop where
  first : first?.isSome ↔ v.blocked = false
  primary : ∀ p ∈ first?, ∃ x, a.effect.base context.toScene (a.subject given) .none = .ok x ∧
    p = a.effect.entry x v a.selector none
  index : ∀ p ∈ rest, ∃ i, i < a.subEffects.length ∧ p.index? = some i
  ordered : (rest.filterMap (·.index?)).Pairwise (· < ·)
  gated : ∀ (i : Nat) (s : SubEffect), a.subEffects[i]? = some s →
    ∃ w, (s.condition?.elim (.ok v) fun c =>
        c.evaluate (.ofContext context (a.subject given) none none)) = .ok w ∧
      ((∃ p ∈ rest, p.index? = some i) ↔ w.blocked = false) ∧
      ∀ p ∈ rest, p.index? = some i →
        ∃ x, s.base context.toScene (a.subject given) .none = .ok x ∧
          p = s.entry x w (s.target?.getD a.selector) (some i)

variable {a context given} {v w : Verdict} {parts ps : List FiredPart}

theorem firedParts_eq_ok_iff (hv : a.verdictIn context given = .ok v) :
    a.firedParts context given = .ok parts ↔ ∃ first rest,
      a.effect.fired context.toScene (a.subject given) v a.selector none = .ok first ∧
        Gated context (a.subject given) v a.selector 0 a.subEffects rest ∧ parts = first ++ rest := by
  rw [firedParts, hv]
  change (a.effect.fired context.toScene (a.subject given) v a.selector none >>= _) = _ ↔ _
  constructor
  · intro h
    obtain ⟨first, hfirst, h⟩ := bind_eq_ok_iff.mp h
    obtain ⟨rest, hrest, h⟩ := bind_eq_ok_iff.mp h
    cases h
    exact ⟨first, rest, hfirst, gated_of_subEffectParts hrest, rfl⟩
  · rintro ⟨first, rest, hfirst, hrest, rfl⟩
    exact bind_eq_ok_iff.mpr ⟨first, hfirst, bind_eq_ok_iff.mpr ⟨rest, hrest.subEffectParts_eq, rfl⟩⟩

theorem exists_verdict_of_firedParts (h : a.firedParts context given = .ok parts) :
    ∃ v, a.verdictIn context given = .ok v := by
  obtain ⟨v, hv, -⟩ := bind_eq_ok_iff.mp h
  exact ⟨v, hv⟩

theorem expansion_of_firedParts (hv : a.verdictIn context given = .ok v)
    (h : a.firedParts context given = .ok parts) :
    ∃ first? rest, parts = first?.toList ++ rest ∧ a.Expansion context given v first? rest ∧
      Gated context (a.subject given) v a.selector 0 a.subEffects rest := by
  obtain ⟨first, rest, hfirst, hrest, rfl⟩ := (firedParts_eq_ok_iff hv).mp h
  have hgated (i : Nat) (s : SubEffect) (hs : a.subEffects[i]? = some s) := hrest.entry_iff hs
  have hindex := hrest.index_of_mem
  simp only [Nat.zero_add, SubEffect.verdict_eq] at hgated hindex
  cases hb : v.blocked with
  | true =>
    rw [Effect.fired_of_blocked hb] at hfirst
    cases hfirst
    have hexpansion : a.Expansion context given v none rest :=
      { first := by simp [hb], primary := by simp, index := hindex, ordered := hrest.ordered
        gated := hgated }
    exact ⟨none, rest, rfl, hexpansion, hrest⟩
  | false =>
    rw [Effect.fired_of_open hb] at hfirst
    obtain ⟨x, hx, rfl⟩ := map_eq_ok_iff.mp hfirst
    have hexpansion : a.Expansion context given v
        (some (a.effect.entry x v a.selector none)) rest :=
      { first := by simp [hb], primary := by simp [hx], index := hindex
        ordered := hrest.ordered, gated := hgated }
    exact ⟨_, rest, rfl, hexpansion, hrest⟩

theorem exists_firedParts_iff (hv : a.verdictIn context given = .ok v) :
    (∃ parts, a.firedParts context given = .ok parts) ↔
      (v.blocked = false → a.effect.Yields context.toScene (a.subject given)) ∧
        ∀ s ∈ a.subEffects, ∃ w,
          s.verdict v (.ofContext context (a.subject given) none none) = .ok w ∧
            (w.blocked = false → s.Yields context.toScene (a.subject given)) := by
  rw [← exists_gated_iff a.selector 0]
  constructor
  · rintro ⟨parts, h⟩
    obtain ⟨first, rest, hfirst, hrest, -⟩ := (firedParts_eq_ok_iff hv).mp h
    refine ⟨fun hopen => ?_, rest, hrest⟩
    rw [Effect.fired_of_open hopen] at hfirst
    obtain ⟨x, hx, -⟩ := map_eq_ok_iff.mp hfirst
    exact ⟨x, hx⟩
  · rintro ⟨hyields, rest, hrest⟩
    have hfirst : ∃ first,
        a.effect.fired context.toScene (a.subject given) v a.selector none = .ok first := by
      cases hb : v.blocked with
      | true => exact ⟨[], Effect.fired_of_blocked hb⟩
      | false =>
        obtain ⟨x, hx⟩ := hyields hb
        exact ⟨_, by rw [Effect.fired_of_open hb, hx]; rfl⟩
    obtain ⟨first, hfirst⟩ := hfirst
    exact ⟨first ++ rest, (firedParts_eq_ok_iff hv).mpr ⟨first, rest, hfirst, hrest, rfl⟩⟩

namespace Expansion

variable {first? : Option FiredPart} {rest : List FiredPart}

/-- With the gate of the affix open, the primary effect and all sub-effects without a gate of their
own have entries. -/
theorem inherits_open (h : a.Expansion context given v first? rest) (hv : v.blocked = false) :
    (∃ p ∈ first?.toList ++ rest, p.isPrimary = true) ∧
      ∀ (i : Nat) (s : SubEffect), a.subEffects[i]? = some s → s.condition? = none →
        ∃ p ∈ first?.toList ++ rest, p.index? = some i := by
  constructor
  · obtain ⟨p, hp⟩ := Option.isSome_iff_exists.mp (h.first.mpr hv)
    obtain ⟨x, -, hx⟩ := h.primary p hp
    refine ⟨p, List.mem_append_left _ (Option.mem_toList.mpr hp), ?_⟩
    rw [hx]
    rfl
  · intro i s hs hnone
    obtain ⟨w, hw, hiff, -⟩ := h.gated i s hs
    rw [hnone] at hw
    cases hw
    obtain ⟨p, hp, hi⟩ := hiff.mpr hv
    exact ⟨p, List.mem_append_right _ hp, hi⟩

/-- With it closed, none of them has one. -/
theorem overrides_of_blocked (h : a.Expansion context given v first? rest)
    (hv : v.blocked = true) : ∀ p ∈ first?.toList ++ rest, a.overrides p = true := by
  intro p hp
  have hnone : first? = none := by
    rw [← Option.not_isSome_iff_eq_none, h.first, hv]
    decide
  rw [hnone, Option.toList_none, List.nil_append] at hp
  obtain ⟨i, hlt, hi⟩ := h.index p hp
  obtain ⟨w, hw, hiff, -⟩ := h.gated i _ (List.getElem?_eq_getElem hlt)
  have hopen : w.blocked = false := hiff.mp ⟨p, hp, hi⟩
  cases hc : a.subEffects[i].condition? with
  | none =>
    rw [hc] at hw
    cases hw
    cases hv.symm.trans hopen
  | some c => simp [overrides, hi, hlt, hc]

end Expansion

/-- The affix with another condition, or none. -/
def regated (a : Affix) (c? : Option Condition) : Affix := { a with condition? := c? }

variable {c? : Option Condition}

theorem exists_firedParts_regated (hparts : a.firedParts context given = .ok parts)
    (hw : (a.regated c?).verdictIn context given = .ok w) :
    (∃ ps, (a.regated c?).firedParts context given = .ok ps) ↔
      (w.blocked = false → a.effect.Yields context.toScene (a.subject given) ∧
        ∀ s ∈ a.subEffects, s.condition? = none → s.Yields context.toScene (a.subject given)) := by
  obtain ⟨v, hv⟩ := exists_verdict_of_firedParts hparts
  obtain ⟨-, hsubs⟩ := (exists_firedParts_iff hv).mp ⟨parts, hparts⟩
  rw [exists_firedParts_iff hw]
  constructor
  · rintro ⟨hprimary, hall⟩ hopen
    refine ⟨hprimary hopen, fun s hs hnone => ?_⟩
    obtain ⟨u, hu, hyields⟩ := hall s hs
    rw [SubEffect.verdict_of_inherits hnone] at hu
    cases hu
    exact hyields hopen
  · intro h
    refine ⟨fun hopen => (h hopen).1, fun s hs => ?_⟩
    cases hc : s.condition? with
    | none => exact ⟨w, SubEffect.verdict_of_inherits hc, fun hopen => (h hopen).2 s hs hc⟩
    | some c =>
      obtain ⟨u, hu, hyields⟩ := hsubs s hs
      exact ⟨u, (SubEffect.verdict_of_overrides (by simp [hc])).trans hu, hyields⟩

/-- The entries of sub-effects with a gate of their own are those under a gate that blocks. -/
theorem subEffectParts_blocked (h : a.firedParts context given = .ok parts) :
    subEffectParts context (a.subject given) { blocked := true } a.selector 0 a.subEffects =
      .ok (parts.filter a.overrides) := by
  obtain ⟨v, hv⟩ := exists_verdict_of_firedParts h
  obtain ⟨first?, rest, rfl, hexpansion, hgated⟩ := expansion_of_firedParts hv h
  have hfirst : first?.toList.filter a.overrides = [] := by
    refine List.filter_eq_nil_iff.mpr fun p hp => ?_
    obtain ⟨x, -, rfl⟩ := hexpansion.primary p (Option.mem_toList.mp hp)
    exact Bool.false_ne_true
  rw [List.filter_append, hfirst, List.nil_append]
  exact (hgated.under_block fun k s hs => by simp [hs]).subEffectParts_eq

end Affix

/-- An affix expands, if each value source whose gate is open yields a value, to the entry of its
primary effect, where its own gate is open, and then to one entry for each sub-effect with an open
gate, in order; a sub-effect without a condition has the gate of the affix, and the value of an entry is that of its source times the multiplier of its gate. With any
other condition that can be evaluated, the affix keeps the entries of the sub-effects with a gate of
their own, while the others are all there, if the new gate is open and their sources yield values, or
none of them is. -/
theorem expansion_is_gated_in_order (a : Affix) (context : Context) (given : Subject) :
    let scene := context.toScene
    let self := a.subject given
    let view := View.ofContext context self none none
    (∀ parts, a.firedParts context given = .ok parts → ∃ v first? rest,
      a.verdictIn context given = .ok v ∧ parts = first?.toList ++ rest ∧
        a.Expansion context given v first? rest) ∧
      (∀ v, a.verdictIn context given = .ok v →
        ((∃ parts, a.firedParts context given = .ok parts) ↔
          (v.blocked = false → a.effect.Yields scene self) ∧
            ∀ s ∈ a.subEffects, ∃ w,
              (s.condition?.elim (.ok v) fun c => c.evaluate view) = .ok w ∧
                (w.blocked = false → s.Yields scene self))) ∧
      ∀ (c? : Option Condition) (w : Verdict) (parts : List FiredPart),
        (a.regated c?).verdictIn context given = .ok w → a.firedParts context given = .ok parts →
          ((∃ ps, (a.regated c?).firedParts context given = .ok ps) ↔
            (w.blocked = false → a.effect.Yields scene self ∧
              ∀ s ∈ a.subEffects, s.condition? = none → s.Yields scene self)) ∧
            ∀ ps, (a.regated c?).firedParts context given = .ok ps →
              ps.filter a.overrides = parts.filter a.overrides ∧
                (w.blocked = false → (∃ p ∈ ps, p.isPrimary = true) ∧
                  ∀ i s, a.subEffects[i]? = some s → s.condition? = none →
                    ∃ p ∈ ps, p.index? = some i) ∧
                (w.blocked = true → ∀ p ∈ ps, a.overrides p = true) := by
  intro scene self view
  refine ⟨fun parts h => ?_, fun v hv => ?_,
    fun c? w parts hw h => ⟨Affix.exists_firedParts_regated h hw, fun ps hps => ?_⟩⟩
  · obtain ⟨v, hv⟩ := Affix.exists_verdict_of_firedParts h
    obtain ⟨first?, rest, hparts, hexpansion, -⟩ := Affix.expansion_of_firedParts hv h
    exact ⟨v, first?, rest, hv, hparts, hexpansion⟩
  · simp only [← SubEffect.verdict_eq]
    exact Affix.exists_firedParts_iff hv
  · have hsame : ps.filter a.overrides = parts.filter a.overrides := by
      have hother := Affix.subEffectParts_blocked hps
      rw [← Except.ok.injEq, ← Affix.subEffectParts_blocked h]
      exact hother.symm
    obtain ⟨first?, rest, rfl, hexpansion, -⟩ := Affix.expansion_of_firedParts hw hps
    exact ⟨hsame, hexpansion.inherits_open, hexpansion.overrides_of_blocked⟩

/-- The scale of the affix reaches the first sub-effect and not the last; the one between is closed
by a gate of its own. A closed gate of the affix leaves the last alone. -/
theorem expansion_is_gated_in_order_with_mixed_gates :
    let die : Die := { slot := 0, value := 4 }
    let context : Context := { usedCount := 2, hand := [die] }
    let mark : SubEffect :=
      { source := .selfValue, target? := some .left, condition? := some { kind := .none } }
    let a : Affix :=
      { name := "Chord", effect := { value := 3 }, condition? := some { kind := .perUsedDie }
        subEffects :=
          [{ value := 1 },
            { mark with condition? := some { kind := .selfValueAbove, threshold := 5 } }, mark] }
    let primary := a.effect.entry 3 { multiplier := 2 } .self none
    let shared := a.effect.entry 1 { multiplier := 2 } .self (some 0)
    let own := mark.entry 4 .passed .left (some 2)
    a.firedParts context (.die die) = .ok [primary, shared, own] ∧
      (∃ v first? rest, a.verdictIn context (.die die) = .ok v ∧
        [primary, shared, own] = first?.toList ++ rest ∧
          a.Expansion context (.die die) v first? rest) ∧
      ∃ ps, (a.regated (some { kind := .inCombat })).firedParts context (.die die) = .ok ps ∧
        ps.filter a.overrides = [own] ∧ ∀ p ∈ ps, a.overrides p = true := by
  intro die context mark a primary shared own
  have hparts : a.firedParts context (.die die) = .ok [primary, shared, own] := by decide +kernel
  have hclosed : (a.regated (some { kind := .inCombat })).verdictIn context (.die die) =
      .ok { blocked := true } := by decide +kernel
  obtain ⟨hexpansion, -, hregated⟩ := expansion_is_gated_in_order a context (.die die)
  obtain ⟨hreturns, hsame⟩ := hregated (some { kind := .inCombat }) _ _ hclosed hparts
  obtain ⟨ps, hps⟩ := hreturns.mpr fun hopen => by cases hopen
  obtain ⟨hfilter, -, hall⟩ := hsame ps hps
  exact ⟨hparts, hexpansion _ hparts, ps, hps, hfilter.trans (by decide +kernel), hall rfl⟩

/-- A die beyond the doubles has no share. Under a closed gate nobody asks for it, and the sub-effect
with a gate of its own has its entry; under an open one the expansion fails. -/
theorem open_gate_loses_overriding_entry :
    let die : Die := { slot := 0, value := Int.pow 10 309 }
    let context : Context := { hand := [die] }
    let s : SubEffect := { value := 2, condition? := some {} }
    let a : Affix :=
      { name := "Echo", effect := { source := .selfValueFraction }
        condition? := some { kind := .inCombat }, subEffects := [s] }
    a.firedParts context (.die die) = .ok [s.entry 2 .passed .self (some 0)] ∧
      (a.regated (some {})).verdictIn context (.die die) = .ok .passed ∧
      (a.regated (some {})).firedParts context (.die die) = .error .tooLarge := by
  decide +kernel

end AffixRules
