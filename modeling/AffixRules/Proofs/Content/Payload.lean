import AffixRules.Content.Sheet
import Mathlib.Data.List.Basic

/-! Authored payloads. The payload of a sheet has the form that its effect expects and carries what
was written, unless the key that it is made of is missing. Warnings tell just that: no other warning
of an affix opens as one of a payload does, so they are told apart by their texts. -/
namespace AffixRules

/-- The text begins with the word and a blank. -/
def Opens (word w : String) : Prop := ∃ rest, w = word ++ (" " ++ rest)

theorem opens_append {blank : String} (tail : String) (h : blank = " " ++ tail)
    (word rest : String) : Opens word (word ++ (blank ++ rest)) :=
  ⟨tail ++ rest, by rw [h, String.append_assoc]⟩

theorem opens_split {start word : String} (tail : String) (h : start = word ++ (" " ++ tail))
    (rest : String) : Opens word (start ++ rest) :=
  ⟨tail ++ rest, by rw [h, String.append_assoc, String.append_assoc]⟩

section

variable {w u v : String}

theorem Opens.takeWhile_eq (h : Opens u w) (hu : ' ' ∉ u.toList) :
    w.toList.takeWhile (· ≠ ' ') = u.toList := by
  obtain ⟨rest, rfl⟩ := h
  have hword : ∀ c ∈ u.toList, decide (c ≠ ' ') = true :=
    fun c hc => decide_eq_true fun he => hu (he ▸ hc)
  rw [String.toList_append, List.takeWhile_append_of_pos hword]
  simp

/-- A text opens with one word. -/
theorem Opens.unique (hu : Opens u w) (hv : Opens v w) (hnu : ' ' ∉ u.toList)
    (hnv : ' ' ∉ v.toList) : u = v :=
  String.toList_injective ((hu.takeWhile_eq hnu).symm.trans (hv.takeWhile_eq hnv))

end

theorem Vocabulary.toList_label {α : Type} [Vocabulary α] (a : α) :
    (label a).toList = (word a).toList.map Char.toUpper := by
  simp [label, String.toUpper]

/-- The words that warnings of payloads open with. -/
def payloadWords : List String := "TURNS" :: (Vocabulary.all : List EffectKind).map Vocabulary.label

/-- The words that the other warnings of an effect or an affix open with. -/
def otherWords : List String :=
  ["STAT_FLAT", "STAT_MULTIPLIER", "GRANTED_ACTION", "PLAYER_STAT", "value_range", "invert"] ++
    (Vocabulary.all : List ConditionKind).map Vocabulary.label

theorem not_mem_otherWords : ∀ word ∈ payloadWords, word ∉ otherWords := by decide +kernel

theorem words_plain : ∀ word ∈ payloadWords ++ otherWords,
    ' ' ∉ word.toList ∧ word.toList.head? ≠ some 's' := by
  simp [payloadWords, otherWords, Vocabulary.all, Vocabulary.toList_label, Vocabulary.word]

theorem EffectKind.mem_payloadWords (kind : EffectKind) : Vocabulary.label kind ∈ payloadWords :=
  List.mem_cons_of_mem _ (List.mem_map_of_mem (by cases kind <;> decide))

theorem ConditionKind.mem_otherWords (kind : ConditionKind) : Vocabulary.label kind ∈ otherWords :=
  List.mem_append_right _ (List.mem_map_of_mem (by cases kind <;> decide))

theorem PayloadFault.opens (f : PayloadFault) : ∃ word ∈ payloadWords, Opens word f.warning := by
  cases f with
  | wrongForm kind form =>
    refine ⟨_, kind.mem_payloadWords, ?_⟩
    change Opens _ (Vocabulary.label kind ++ " expects " ++ kind.expects.title ++ ", got " ++
      form.title)
    simp only [String.append_assoc]
    exact opens_append "expects " (by decide) _ _
  | expiresImmediately turns =>
    refine ⟨"TURNS", List.mem_cons_self, ?_⟩
    change Opens _ ("TURNS combat modifier with " ++ toString turns ++ " turns expires immediately")
    rw [String.append_assoc]
    exact opens_split "combat modifier with " (by decide) _

/-- The text opens as a warning that is not about a payload. -/
def Unrelated (w : String) : Prop := ∃ word ∈ otherWords, Opens word w

theorem PayloadFault.not_unrelated (f : PayloadFault) : ¬ Unrelated f.warning := by
  rintro ⟨word, hword, hw⟩
  obtain ⟨own, hown, hopens⟩ := f.opens
  obtain rfl : own = word := hopens.unique hw (words_plain own (List.mem_append_left _ hown)).1
    (words_plain word (List.mem_append_right _ hword)).1
  exact not_mem_otherWords own hown hword

theorem Effect.unrelated_sourceWarnings (e : Effect) : ∀ w ∈ e.sourceWarnings, Unrelated w := by
  intro w hw
  rw [sourceWarnings] at hw
  split at hw
  · obtain rfl := List.mem_singleton.mp hw
    exact ⟨"PLAYER_STAT", by simp [otherWords], "value source requires source_stat", by decide⟩
  · cases hw

theorem Condition.unrelated_warnings (c : Condition) : ∀ w ∈ c.warnings, Unrelated w := by
  intro w hw
  simp only [warnings, List.mem_append, or_assoc] at hw
  obtain hw | hw | hw := hw
  · split at hw
    · split at hw
      · obtain rfl := List.mem_singleton.mp hw
        rw [String.append_assoc]
        exact ⟨_, c.kind.mem_otherWords, opens_append "requires data key " (by decide) _ _⟩
      · cases hw
    · cases hw
  · split at hw
    · split at hw
      · cases hw
      · obtain rfl := List.mem_singleton.mp hw
        simp only [String.append_assoc]
        exact ⟨_, c.kind.mem_otherWords, opens_append "threshold " (by decide) _ _⟩
    · cases hw
  · split at hw
    · obtain rfl := List.mem_singleton.mp hw
      rw [String.append_assoc]
      exact ⟨"invert", by simp [otherWords], opens_split "on scaling condition " (by decide) _⟩
    · cases hw

theorem Affix.unrelated_categoryWarnings (a : Affix) : ∀ w ∈ a.categoryWarnings, Unrelated w := by
  intro w hw
  rw [categoryWarnings, List.mem_append] at hw
  obtain hw | hw := hw
  · split at hw
    next h =>
      obtain rfl := List.mem_singleton.mp hw
      refine ⟨Vocabulary.label a.category, ?_, "affix requires stat_name",
        congrArg (Vocabulary.label a.category ++ ·) (by decide)⟩
      obtain hc | hc := h.1 <;> (rw [hc]; decide +kernel)
    next => cases hw
  · split at hw
    · obtain rfl := List.mem_singleton.mp hw
      exact ⟨"GRANTED_ACTION", by simp [otherWords], "affix should use the GRANT_ACTION effect",
        by decide⟩
    · cases hw

theorem Affix.unrelated_rangeWarnings (a : Affix) : ∀ w ∈ a.rangeWarnings, Unrelated w := by
  intro w hw
  rw [rangeWarnings] at hw
  split at hw
  · split at hw
    · obtain rfl := List.mem_singleton.mp hw
      simp only [String.append_assoc]
      exact ⟨"value_range", by simp [otherWords], opens_split "(" (by decide) _⟩
    · cases hw
  · cases hw

/-- The warnings of an effect's payload, found by their texts among others. -/
theorem Effect.exists_warning_iff (e : Effect) {others : List String}
    (h : ∀ f : PayloadFault, f.warning ∉ others) :
    (∃ f : PayloadFault, f.warning ∈ e.payloadWarnings ++ others) ↔
      (e.payload.fault? e.kind).isSome := by
  constructor
  · rintro ⟨f, hf⟩
    obtain hf | hf := List.mem_append.mp hf
    · obtain ⟨g, hg, -⟩ := List.mem_map.mp hf
      simp [Option.mem_toList.mp hg]
    · exact absurd hf (h f)
  · intro hs
    obtain ⟨f, hf⟩ := Option.isSome_iff_exists.mp hs
    exact ⟨f, List.mem_append_left _ (List.mem_map_of_mem (Option.mem_toList.mpr hf))⟩

theorem unrelated_conditionWarnings (c? : Option Condition) :
    ∀ w ∈ (c?.map Condition.warnings).getD [], Unrelated w := by
  cases c? with
  | none => simp
  | some c => exact c.unrelated_warnings

theorem SubEffect.exists_warning_iff (s : SubEffect) :
    (∃ f : PayloadFault, f.warning ∈ s.warnings) ↔ (s.payload.fault? s.kind).isSome := by
  rw [warnings, List.append_assoc]
  refine s.toEffect.exists_warning_iff fun f hf => f.not_unrelated ?_
  exact (List.mem_append.mp hf).elim (s.unrelated_sourceWarnings _)
    (unrelated_conditionWarnings _ _)

namespace Affix

/-- The word that warnings of a sub-effect open with. -/
def partWord (i : Nat) : String := "sub_effect[" ++ toString i ++ "]:"

theorem partWord_plain (i : Nat) : ' ' ∉ (partWord i).toList := by
  have hdigits : ' ' ∉ (toString i).toList := by
    rw [Nat.toString_eq_ofList_toDigits, String.toList_ofList]
    intro h
    exact absurd (Nat.isDigit_of_mem_toDigits (by decide) (by decide) h) (by decide)
  simpa [partWord] using hdigits

theorem partWord_injective {i j : Nat} (h : partWord i = partWord j) : i = j := by
  have hdigits : toString i = toString j :=
    (String.append_right_inj _).mp ((String.append_left_inj _).mp h)
  -- reading the digits gives the number back
  have hread := congrArg (fun w : String => Nat.ofDigitChars 10 w.toList 0) hdigits
  simpa [Nat.toString_eq_ofList_toDigits] using hread

theorem opens_part (i : Nat) (w : String) :
    Opens (partWord i) ("sub_effect[" ++ toString i ++ "]: " ++ w) := by
  have hsplit : "]: " = "]:" ++ " " := by decide
  exact ⟨w, by simp only [partWord, hsplit, String.append_assoc]⟩

theorem not_opens_part {i : Nat} {word w : String} (hword : word ∈ payloadWords ++ otherWords)
    (hw : Opens word w) : ¬ Opens (partWord i) w := by
  intro hpart
  obtain ⟨hplain, hhead⟩ := words_plain word hword
  obtain rfl : word = partWord i := hw.unique hpart hplain (partWord_plain i)
  exact hhead (by simp [partWord])

variable (a : Affix)

/-- The warnings about the affix itself that are not about its payload. -/
def ownWarnings : List String :=
  a.categoryWarnings ++ a.effect.sourceWarnings ++ a.rangeWarnings ++
    (a.condition?.map Condition.warnings).getD []

theorem unrelated_ownWarnings : ∀ w ∈ a.ownWarnings, Unrelated w := by
  intro w hw
  simp only [ownWarnings, List.mem_append, or_assoc] at hw
  obtain hw | hw | hw | hw := hw
  · exact a.unrelated_categoryWarnings w hw
  · exact a.effect.unrelated_sourceWarnings w hw
  · exact a.unrelated_rangeWarnings w hw
  · exact unrelated_conditionWarnings _ w hw

theorem mem_warnings_iff (w : String) :
    a.name.asText ++ ": " ++ w ∈ a.warnings ↔
      w ∈ a.effect.payloadWarnings ++ a.ownWarnings ++ a.subEffectWarnings := by
  have hsame (v : String) : a.name.asText ++ ": " ++ v = a.name.asText ++ ": " ++ w ↔ v = w :=
    String.append_right_inj _
  simp only [warnings, ownWarnings, List.mem_map, hsame, exists_eq_right, List.append_assoc]

variable {a}

/-- A warning of a sub-effect is reported under its number, and nothing else is. -/
theorem part_mem_warnings_iff {i : Nat} {s : SubEffect} (hs : a.subEffects[i]? = some s)
    (w : String) :
    a.name.asText ++ ": " ++ ("sub_effect[" ++ toString i ++ "]: " ++ w) ∈ a.warnings ↔
      w ∈ s.warnings := by
  rw [mem_warnings_iff]
  constructor
  · intro hw
    obtain hw | hw := List.mem_append.mp hw
    · obtain hw | hw := List.mem_append.mp hw
      · obtain ⟨f, -, hf⟩ := List.mem_map.mp hw
        obtain ⟨word, hword, hopens⟩ := f.opens
        exact absurd (opens_part i w) (not_opens_part (List.mem_append_left _ hword) (hf ▸ hopens))
      · obtain ⟨word, hword, hopens⟩ := a.unrelated_ownWarnings _ hw
        exact absurd (opens_part i w) (not_opens_part (List.mem_append_right _ hword) hopens)
    · -- the number of the sub-effect can be read off the text
      obtain ⟨⟨t, j⟩, ht, hnumbered⟩ := List.mem_flatMap.mp hw
      obtain ⟨v, hv, heq⟩ := List.mem_map.mp hnumbered
      obtain rfl : j = i := partWord_injective
        ((heq ▸ opens_part j v).unique (opens_part i w) (partWord_plain j) (partWord_plain i))
      obtain rfl : t = s := Option.some.inj ((List.mk_mem_zipIdx_iff_getElem?.mp ht).symm.trans hs)
      obtain rfl : v = w := (String.append_right_inj _).mp heq
      exact hv
  · intro hw
    refine List.mem_append_right _ (List.mem_flatMap.mpr ⟨(s, i), ?_, List.mem_map_of_mem hw⟩)
    exact List.mk_mem_zipIdx_iff_getElem?.mpr hs

theorem exists_payload_warning_iff (a : Affix) :
    (∃ f : PayloadFault, a.name.asText ++ ": " ++ f.warning ∈ a.warnings) ↔
      (a.effect.payload.fault? a.effect.kind).isSome := by
  simp only [mem_warnings_iff, List.append_assoc]
  refine a.effect.exists_warning_iff fun f hf => ?_
  obtain hf | hf := List.mem_append.mp hf
  · exact f.not_unrelated (a.unrelated_ownWarnings _ hf)
  · obtain ⟨⟨s, i⟩, -, hnumbered⟩ := List.mem_flatMap.mp hf
    obtain ⟨w, -, hw⟩ := List.mem_map.mp hnumbered
    obtain ⟨word, hword, hopens⟩ := f.opens
    exact not_opens_part (List.mem_append_left _ hword) hopens (hw ▸ opens_part i w)

end Affix

namespace PayloadSheet

/-- The sheet has no value for the key that the payload of an effect is made of. An empty text
counts as none; other values count, whatever they are. -/
def Lacks (s : PayloadSheet) : EffectKind → Prop
  | .addTag | .removeTag => s.tag? = none ∨ s.tag? = some ""
  | .setElement => s.element? = none
  | .leechHeal => s.percent? = none
  | .grantAction => s.action? = none ∨ s.action? = some ""
  | .statBonus | .flatBonus | .setMinimum | .randomizeElement | .destroySelf
  | .createCombatModifier => False

/-- The sheet describes a modifier for a number of turns that is none. -/
def Expires (s : PayloadSheet) (kind : EffectKind) : Prop :=
  kind = .createCombatModifier ∧ s.duration = .turns ∧ s.turns ≤ 0

/-- The payload carries what the sheet has for its form. -/
inductive Carries (s : PayloadSheet) : Payload → Prop
  | nothing : s.Carries .nothing
  | tag {tag : String} (h : s.tag? = some tag) : s.Carries (.tag tag)
  | element {element : Element} (h : s.element? = some element) : s.Carries (.element element)
  | randomize : s.Carries (.randomize s.elements)
  | leech {percent : Float} (h : s.percent? = some percent) : s.Carries (.leech percent)
  | modifier : s.Carries (.modifier ⟨s.modType, s.duration, s.turns, s.filter⟩)
  | action {id : String} (h : s.action? = some id) : s.Carries (.action id)

variable {s : PayloadSheet} {kind : EffectKind}

theorem nonEmpty?_eq_none_iff {text? : Option String} :
    nonEmpty? text? = none ↔ text? = none ∨ text? = some "" := by
  cases text? <;> simp [nonEmpty?]

theorem nonEmpty?_eq_some_iff {text? : Option String} {text : String} :
    nonEmpty? text? = some text ↔ text? = some text ∧ text ≠ "" := by
  simp [nonEmpty?, Option.filter_eq_some_iff]

theorem payload_of_lacks (h : s.Lacks kind) : s.payload kind = .nothing := by
  cases kind with
  | addTag | removeTag | grantAction =>
    simp [payload, nonEmpty?_eq_none_iff.mpr h]
  | setElement | leechHeal =>
    simp only [Lacks] at h
    simp [payload, h]
  | _ => exact h.elim

theorem payload_of_not_lacks (h : ¬ s.Lacks kind) :
    (s.payload kind).form = kind.expects ∧ s.Carries (s.payload kind) := by
  have htext {text? : Option String} (ht : ¬ (text? = none ∨ text? = some "")) :
      ∃ text, nonEmpty? text? = some text ∧ text? = some text := by
    obtain ⟨text, hsome⟩ := Option.ne_none_iff_exists'.mp (mt nonEmpty?_eq_none_iff.mp ht)
    exact ⟨text, hsome, (nonEmpty?_eq_some_iff.mp hsome).1⟩
  cases kind with
  | addTag | removeTag =>
    obtain ⟨tag, hsome, htag⟩ := htext h
    simp only [payload, hsome]
    exact ⟨rfl, .tag htag⟩
  | grantAction =>
    obtain ⟨id, hsome, hid⟩ := htext h
    simp only [payload, hsome]
    exact ⟨rfl, .action hid⟩
  | setElement =>
    obtain ⟨element, he⟩ := Option.ne_none_iff_exists'.mp h
    simp only [payload, he]
    exact ⟨rfl, .element he⟩
  | leechHeal =>
    obtain ⟨percent, hp⟩ := Option.ne_none_iff_exists'.mp h
    simp only [payload, hp]
    exact ⟨rfl, .leech hp⟩
  | randomizeElement => exact ⟨rfl, .randomize⟩
  | createCombatModifier => exact ⟨rfl, .modifier⟩
  | statBonus | flatBonus | setMinimum | destroySelf => exact ⟨rfl, .nothing⟩

theorem expects_of_lacks (h : s.Lacks kind) : kind.expects ≠ .nothing := by
  cases kind with
  | addTag | removeTag | setElement | leechHeal | grantAction => decide
  | _ => exact h.elim

theorem not_expires_of_lacks (h : s.Lacks kind) : ¬ s.Expires kind := by
  rintro ⟨rfl, -⟩
  exact h

theorem payload_eq_nothing_iff :
    s.payload kind = .nothing ↔ s.Lacks kind ∨ kind.expects = .nothing := by
  by_cases h : s.Lacks kind
  · simp [payload_of_lacks h, h]
  · obtain ⟨hform, -⟩ := payload_of_not_lacks h
    generalize s.payload kind = p at hform
    rw [← hform]
    cases p <;> simp [h, Payload.form]

/-- Where its key is missing, a payload has the wrong form; else its one fault is that it describes
a modifier for no turns. -/
theorem fault?_payload_iff {f : PayloadFault} :
    (s.payload kind).fault? kind = some f ↔
      s.Lacks kind ∧ f = .wrongForm kind .nothing ∨
        s.Expires kind ∧ f = .expiresImmediately s.turns := by
  by_cases h : s.Lacks kind
  · have hfault : Payload.nothing.fault? kind = some (.wrongForm kind .nothing) := by
      simp only [Payload.fault?]
      exact if_neg (expects_of_lacks h).symm
    rw [payload_of_lacks h, hfault, Option.some_inj]
    simp [h, not_expires_of_lacks h, eq_comm]
  · obtain ⟨hform, hcarries⟩ := payload_of_not_lacks h
    generalize s.payload kind = p at hform hcarries
    cases hcarries with
    | modifier =>
      obtain rfl : kind = .createCombatModifier := by cases kind <;> cases hform; rfl
      simp only [Payload.fault?, if_pos hform]
      by_cases hends : s.duration = .turns ∧ s.turns ≤ 0
      · rw [if_pos hends, Option.some_inj]
        simp only [h, Expires, hends, false_and, false_or, true_and]
        exact eq_comm
      · simp [h, Expires, hends]
    | _ =>
      have hkind : kind ≠ .createCombatModifier := by
        rintro rfl
        cases hform
      simp [Payload.fault?, hform, h, Expires, hkind]

/-- The sheet gives an effect a payload that does not suit it. -/
def Faulty (s : PayloadSheet) (kind : EffectKind) : Prop := s.Lacks kind ∨ s.Expires kind

theorem isSome_fault?_payload_iff :
    ((s.payload kind).fault? kind).isSome ↔ s.Faulty kind := by
  simp only [Option.isSome_iff_exists, fault?_payload_iff, exists_or, exists_and_left,
    exists_eq, and_true, Faulty]

end PayloadSheet

/-- The payload of a sheet has the form that its effect expects and carries what was written, or it
is none, which happens where the key is missing and where none is expected; without a sheet it is
the default of the effect. It has a fault where the key is missing or a modifier would last for no
turns. The warnings of an affix hold the text of such a fault, for itself or for a sub-effect under
its number, just where there is one. -/
theorem authored_payloads_suit_their_effects :
    (∀ (kind : EffectKind) (s : PayloadSheet),
      let p := Payload.ofSheet kind (some s)
      (¬ s.Lacks kind → p.form = kind.expects ∧ s.Carries p) ∧
      (p = .nothing ↔ s.Lacks kind ∨ kind.expects = .nothing) ∧
      ∀ f, p.fault? kind = some f ↔
        s.Lacks kind ∧ f = .wrongForm kind .nothing ∨
          s.Expires kind ∧ f = .expiresImmediately s.turns) ∧
    (∀ kind : EffectKind, Payload.ofSheet kind none = kind.defaultPayload) ∧
    ∀ s : AffixSheet,
      ((∃ f : PayloadFault, s.name ++ ": " ++ f.warning ∈ s.toAffix.warnings) ↔
        (s.payload?.getD {}).Faulty s.kind) ∧
      ∀ (i : Nat) (part : SubEffectSheet), s.subEffects[i]? = some part →
        ((∃ f : PayloadFault,
            s.name ++ ": " ++ ("sub_effect[" ++ toString i ++ "]: " ++ f.warning) ∈
              s.toAffix.warnings) ↔
          (part.payload?.getD {}).Faulty part.kind) := by
  refine ⟨fun kind s => ⟨PayloadSheet.payload_of_not_lacks, PayloadSheet.payload_eq_nothing_iff,
    fun f => PayloadSheet.fault?_payload_iff⟩, fun kind => by cases kind <;> rfl, fun s => ⟨?_, ?_⟩⟩
  · exact s.toAffix.exists_payload_warning_iff.trans PayloadSheet.isSome_fault?_payload_iff
  · intro i part hpart
    have hsub : s.toAffix.subEffects[i]? = some part.toSubEffect := by
      simp [AffixSheet.toAffix, hpart]
    calc (∃ f : PayloadFault,
          s.name ++ ": " ++ ("sub_effect[" ++ toString i ++ "]: " ++ f.warning) ∈ s.toAffix.warnings)
        ↔ ∃ f : PayloadFault, f.warning ∈ part.toSubEffect.warnings :=
          exists_congr fun f => Affix.part_mem_warnings_iff hsub f.warning
      _ ↔ (part.toSubEffect.payload.fault? part.toSubEffect.kind).isSome :=
          part.toSubEffect.exists_warning_iff
      _ ↔ (part.payload?.getD {}).Faulty part.kind := PayloadSheet.isSome_fault?_payload_iff

/-- An empty tag is missing and a share of zero is not; a modifier for no turns is reported under
its number. -/
theorem authored_payloads_suit_their_effects_part_by_part :
    let leech : SubEffectSheet := { kind := .leechHeal, payload? := some { percent? := some 0 } }
    let hex : SubEffectSheet :=
      { kind := .createCombatModifier, payload? := some { duration := .turns } }
    let s : AffixSheet :=
      { id := "brand", name := "Brand", kind := .addTag, payload? := some { tag? := some "" }
        condition? := some { kind := .hasTag }, subEffects := [leech, hex] }
    (∃ f : PayloadFault, "Brand" ++ ": " ++ f.warning ∈ s.toAffix.warnings) ∧
      (¬ ∃ f : PayloadFault,
        "Brand" ++ ": " ++ ("sub_effect[" ++ toString 0 ++ "]: " ++ f.warning) ∈
          s.toAffix.warnings) ∧
      (∃ f : PayloadFault,
        "Brand" ++ ": " ++ ("sub_effect[" ++ toString 1 ++ "]: " ++ f.warning) ∈
          s.toAffix.warnings) ∧
      (Payload.ofSheet .leechHeal leech.payload?).form = .leech := by
  intro leech hex s
  obtain ⟨hpayload, -, hreported⟩ := authored_payloads_suit_their_effects
  obtain ⟨hprimary, hparts⟩ := hreported s
  have hleech : ¬ ({ percent? := some 0 } : PayloadSheet).Lacks .leechHeal := nofun
  refine ⟨hprimary.mpr (.inl (.inr rfl)), mt (hparts 0 leech rfl).mp ?_,
    (hparts 1 hex rfl).mpr (.inr ⟨rfl, rfl, by decide⟩), ((hpayload _ _).1 hleech).1⟩
  exact fun h => h.elim hleech fun he => nomatch he.1

end AffixRules
