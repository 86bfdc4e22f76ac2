import AffixRules.Entries

/-! Numbered cells that several holders can refer to; writing one is seen by all of them. -/
namespace AffixRules

structure Store (α : Type) where
  cells : Entries Nat α := []
  /-- The number that the next new cell gets. -/
  next : Nat := 0
  deriving DecidableEq, Inhabited

namespace Store

variable {α : Type}

def get [Inhabited α] (s : Store α) (i : Nat) : α := (s.cells.value? i).getD default

def set (s : Store α) (i : Nat) (a : α) : Store α := { s with cells := s.cells.put i a }

def modify [Inhabited α] (s : Store α) (i : Nat) (f : α → α) : Store α := s.set i (f (s.get i))

/-- A new cell. -/
def alloc (s : Store α) (a : α) : Nat × Store α :=
  (s.next, { cells := s.cells.put s.next a, next := s.next + 1 })

/-- New cells for all of a list, numbered in order. -/
def allocAll (s : Store α) : List α → List Nat × Store α
  | [] => ([], s)
  | a :: as =>
    let (i, t) := s.alloc a
    let (is, u) := t.allocAll as
    (i :: is, u)

@[simp] theorem get_set [Inhabited α] (s : Store α) (i j : Nat) (a : α) :
    (s.set i a).get j = if i = j then a else s.get j := by
  by_cases h : i = j <;> simp [get, set, h]

@[simp] theorem get_modify [Inhabited α] (s : Store α) (i j : Nat) (f : α → α) :
    (s.modify i f).get j = if i = j then f (s.get i) else s.get j := by
  simp [modify]

@[simp] theorem get_alloc [Inhabited α] (s : Store α) (a : α) (j : Nat) :
    (s.alloc a).2.get j = if s.next = j then a else s.get j := by
  by_cases h : s.next = j <;> simp [get, alloc, h]

theorem allocAll_fst (s : Store α) (as : List α) :
    (s.allocAll as).1 = List.range' s.next as.length := by
  induction as generalizing s with
  | nil => rfl
  | cons a as ih =>
    have := ih (s.alloc a).2
    simp only [allocAll, List.length_cons, List.range'_succ]
    rw [this]
    simp [alloc]

end Store

end AffixRules
