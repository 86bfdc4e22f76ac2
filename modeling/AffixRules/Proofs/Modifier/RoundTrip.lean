import AffixRules.Outcome
import AffixRules.Record.Modifier
import Mathlib.Control.Monad.Basic
import Mathlib.Logic.Function.Iterate

/-! Modifiers as records. What is written is read back, field by field; so a record that can be read
at all, with fields missing or loosely written, is brought into its written form in one step. -/
namespace AffixRules

/-- The reading takes back every value from its written form. -/
def Reading.Inverts {α : Type} (read : Reading α) (write : α → Document) : Prop :=
  ∀ a, read (write a) = .ok a

section

variable {α : Type}

theorem Reading.float_inverts : Reading.float.Inverts .float := fun _ => rfl

theorem Reading.int_inverts : Reading.int.Inverts .int := fun _ => rfl

theorem Reading.word_inverts [Vocabulary α]
    (h : ∀ a : α, Vocabulary.ofWord? (Vocabulary.word a) = some a) :
    (word (α := α)).Inverts Document.ofWord := by
  intro a
  simp only [word, Document.ofWord, Vocabulary.ofDocument?, h]

theorem Record.field_of_inverts {r : Record} {key : String} {read : Reading α}
    {write : α → Document} (h : read.Inverts write) {a : α} (hr : r.value? key = some (write a))
    (fallback : α) : r.field key fallback read = .ok a := by
  rw [field, hr]
  exact h a

end

namespace Modifier

theorem modType_inverts : (Reading.word (α := ModifierType)).Inverts Document.ofWord :=
  Reading.word_inverts fun a => by cases a <;> decide

theorem duration_inverts : (Reading.word (α := ModifierDuration)).Inverts Document.ofWord :=
  Reading.word_inverts fun a => by cases a <;> decide

theorem filter_inverts : (Reading.word (α := TargetFilter)).Inverts Document.ofWord :=
  Reading.word_inverts fun a => by cases a <;> decide

variable {r : Record} {m : Modifier}

/-- A record is read as a modifier when each field is read as the modifier's. -/
theorem ofRecord_eq_ok_iff :
    ofRecord r = .ok m ↔
      r.field "mod_type" .flat Reading.word = .ok m.modType ∧
      r.field "value" 0 Reading.float = .ok m.value ∧
      r.field "duration" .combat Reading.word = .ok m.duration ∧
      r.field "turns_remaining" 0 Reading.int = .ok m.turnsLeft ∧
      r.field "target_filter" .all Reading.word = .ok m.filter ∧
      r.field "source_slot_index" (-1) Reading.int = .ok m.sourceSlot ∧
      r.label "source_name" = m.sourceName ∧
      r.field "target_slot_index" .null .ok = .ok m.target := by
  simp only [ofRecord, bind_eq_ok_iff, pure, Except.pure, Except.ok.injEq]
  constructor
  · rintro ⟨_, hmod, _, hvalue, _, hduration, _, hturns, _, hfilter, _, hsource, _, htarget, rfl⟩
    exact ⟨hmod, hvalue, hduration, hturns, hfilter, hsource, rfl, htarget⟩
  · rintro ⟨hmod, hvalue, hduration, hturns, hfilter, hsource, hname, htarget⟩
    refine ⟨_, hmod, _, hvalue, _, hduration, _, hturns, _, hfilter, _, hsource, _, htarget, ?_⟩
    rw [hname]

theorem ofRecord_toRecord (m : Modifier) : ofRecord m.toRecord = .ok m :=
  ofRecord_eq_ok_iff.mpr
    ⟨Record.field_of_inverts modType_inverts rfl _,
      Record.field_of_inverts Reading.float_inverts rfl _,
      Record.field_of_inverts duration_inverts rfl _,
      Record.field_of_inverts Reading.int_inverts rfl _,
      Record.field_of_inverts filter_inverts rfl _,
      Record.field_of_inverts Reading.int_inverts rfl _, rfl, rfl⟩

theorem ofDocument_toRecord (m : Modifier) : ofDocument (.object m.toRecord) = .ok m :=
  ofRecord_toRecord m

/-- The written form of what a record is read as. -/
def normalized (r : Record) : Except Failure Record := (ofRecord r).map toRecord

theorem normalized_normalized {s : Record} (h : normalized r = .ok s) : normalized s = .ok s := by
  obtain ⟨m, -, rfl⟩ := map_eq_ok_iff.mp h
  rw [normalized, ofRecord_toRecord]
  rfl

/-- Every modifier is read back from its record as it was, whichever double its value is. A record
that is read as a modifier, however loosely it is written, has a written form that is read as the
same one, and writing it again changes nothing. Read back, a modifier ends, applies and runs through
its turns as before. -/
theorem records_round_trip :
    (∀ m : Modifier, ofRecord m.toRecord = .ok m) ∧
      (∀ r s : Record, normalized r = .ok s → normalized s = .ok s) ∧
      ∀ (d : Document) (m : Modifier), ofDocument d = .ok m →
        ∃ m', ofDocument (.object m.toRecord) = .ok m' ∧ m' = m ∧
          ∀ n, (ticked^[n] m').isExpired = (ticked^[n] m).isExpired ∧
            (ticked^[n] m').turnsLeft = (ticked^[n] m).turnsLeft ∧
            ∀ slot, (ticked^[n] m').appliesTo slot = (ticked^[n] m).appliesTo slot :=
  ⟨ofRecord_toRecord, fun _ _ => normalized_normalized,
    fun _ m _ => ⟨m, ofDocument_toRecord m, rfl, fun _ => ⟨rfl, rfl, fun _ => rfl⟩⟩⟩

/-- Numerals as texts, a truth value for a slot, and half the fields missing: the written form has
eight fields, and two turns later the modifier has ended. -/
theorem records_round_trip_from_loose_fields :
    let loose : Document := .object
      [("value", .text " 2_5e-1 "), ("turns_remaining", .float 2.9), ("duration", .text "turns"),
        ("source_slot_index", .bool true), ("target_slot_index", .float 1)]
    let m : Modifier :=
      { value := 2.5, duration := .turns, turnsLeft := 2, sourceSlot := 1, target := .float 1 }
    ofDocument loose = .ok m ∧
      ∃ m', ofDocument (.object m.toRecord) = .ok m' ∧ m' = m ∧
        (ticked^[1] m').isExpired = false ∧ (ticked^[2] m').isExpired = true := by
  intro loose m
  have hloose : ofDocument loose = .ok m := by decide +kernel
  obtain ⟨m', hread, hsame, hturns⟩ := records_round_trip.2.2 loose m hloose
  exact ⟨hloose, m', hread, hsame, (hturns 1).1.trans (by decide), (hturns 2).1.trans (by decide)⟩

end Modifier

end AffixRules
