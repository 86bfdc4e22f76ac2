import AffixRules.Entries

/-! Documents: the free-form data of content files, records and condition parameters. -/
namespace AffixRules

/-- A document; whole numbers and doubles are different kinds. -/
inductive Document where
  | null
  | bool (b : Bool)
  | int (n : Int)
  | float (x : Float)
  | text (s : String)
  | list (items : List Document)
  | object (fields : List (String × Document))
  deriving Inhabited

namespace Document

mutual

/-- Equality by form; a NaN equals a NaN. -/
def decEq : (a b : Document) → Decidable (a = b)
  | null, null => isTrue rfl
  | bool a, bool b => if h : a = b then isTrue (h ▸ rfl) else isFalse (by simp [h])
  | int a, int b => if h : a = b then isTrue (h ▸ rfl) else isFalse (by simp [h])
  | float a, float b => if h : a = b then isTrue (h ▸ rfl) else isFalse (by simp [h])
  | text a, text b => if h : a = b then isTrue (h ▸ rfl) else isFalse (by simp [h])
  | list a, list b =>
    match decEqItems a b with
    | isTrue h => isTrue (h ▸ rfl)
    | isFalse h => isFalse (by simp [h])
  | object a, object b =>
    match decEqFields a b with
    | isTrue h => isTrue (h ▸ rfl)
    | isFalse h => isFalse (by simpa using h)
  | null, bool _ | null, int _ | null, float _ | null, text _ | null, list _ | null, object _
  | bool _, null | bool _, int _ | bool _, float _ | bool _, text _ | bool _, list _
  | bool _, object _ | int _, null | int _, bool _ | int _, float _ | int _, text _
  | int _, list _ | int _, object _ | float _, null | float _, bool _ | float _, int _
  | float _, text _ | float _, list _ | float _, object _ | text _, null | text _, bool _
  | text _, int _ | text _, float _ | text _, list _ | text _, object _ | list _, null
  | list _, bool _ | list _, int _ | list _, float _ | list _, text _ | list _, object _
  | object _, null | object _, bool _ | object _, int _ | object _, float _ | object _, text _
  | object _, list _ => isFalse nofun

def decEqItems : (a b : List Document) → Decidable (a = b)
  | [], [] => isTrue rfl
  | a :: as, b :: bs =>
    match decEq a b, decEqItems as bs with
    | isTrue h, isTrue hs => isTrue (h ▸ hs ▸ rfl)
    | isFalse h, _ => isFalse (by simp [h])
    | _, isFalse h => isFalse (by simp [h])
  | [], _ :: _ | _ :: _, [] => isFalse nofun

def decEqFields : (a b : List (String × Document)) → Decidable (a = b)
  | [], [] => isTrue rfl
  | (k, a) :: as, (l, b) :: bs =>
    if hk : k = l then
      match decEq a b, decEqFields as bs with
      | isTrue h, isTrue hs => isTrue (hk ▸ h ▸ hs ▸ rfl)
      | isFalse h, _ => isFalse (by simp [h])
      | _, isFalse h => isFalse (by simp [h])
    else isFalse (by simp [hk])
  | [], _ :: _ | _ :: _, [] => isFalse nofun

end

instance : DecidableEq Document := decEq

/-- Null, false, zero and what is empty count as absent. -/
def isAbsent : Document → Bool
  | null => true
  | bool b => !b
  | int n => n = 0
  | float x => x == 0
  | text s => s.isEmpty
  | list items => items.isEmpty
  | object fields => fields.isEmpty

end Document

end AffixRules
