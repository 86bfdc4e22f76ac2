import AffixRules.Affix.Basic

/-! Equipped items. Items are told apart by a serial number, so a two-handed weapon is one item in
two slots. -/
namespace AffixRules

inductive ItemRarity where
  | common | uncommon | rare | epic | legendary
  deriving DecidableEq, Repr, Inhabited

instance : Vocabulary ItemRarity where
  title := "ItemRarity"
  all := [.common, .uncommon, .rare, .epic, .legendary]
  word
    | .common => "common"
    | .uncommon => "uncommon"
    | .rare => "rare"
    | .epic => "epic"
    | .legendary => "legendary"

def ItemRarity.rank : ItemRarity → Nat
  | common => 0
  | uncommon => 1
  | rare => 2
  | epic => 3
  | legendary => 4

inductive EquipmentSlot where
  | mainHand | offHand | head | chest | hands | legs | feet | accessory
  deriving DecidableEq, Repr, Inhabited

instance : Vocabulary EquipmentSlot where
  title := "EquipmentSlot"
  all := [.mainHand, .offHand, .head, .chest, .hands, .legs, .feet, .accessory]
  word
    | .mainHand => "main_hand"
    | .offHand => "off_hand"
    | .head => "head"
    | .chest => "chest"
    | .hands => "hands"
    | .legs => "legs"
    | .feet => "feet"
    | .accessory => "accessory"

structure Item where
  /-- Tells items apart. -/
  serial : Nat
  id : Label
  name : Label
  slot : EquipmentSlot := .mainHand
  rarity : ItemRarity := .common
  tags : List Label := []
  twoHanded : Bool := false
  affixes : List Affix := []
  /-- One of its affixes could not be found; the known ones stand before it. -/
  incomplete : Bool := false
  deriving DecidableEq, Inhabited

namespace Item

/-- The tag that makes a weapon heavy. -/
def heavyTag : String := "heavy"

def isHeavy (i : Item) : Bool := i.twoHanded || i.tags.contains (.text heavyTag)

def shown (i : Item) : String :=
  "EquippedItem(" ++ i.id.shown ++ ", " ++ Vocabulary.word i.slot ++ ", " ++
    Vocabulary.word i.rarity ++ ")"

end Item

/-- The slots that were ever filled, in the order of the first filling; an emptied one holds
nothing. -/
abbrev Equipment := Entries EquipmentSlot (Option Item)

namespace Equipment

def at? (e : Equipment) (slot : EquipmentSlot) : Option Item := (e.value? slot).join

/-- Puts an item into a slot, its own by default; a two-handed one fills both hands. -/
def equip (e : Equipment) (item : Item) (slot? : Option EquipmentSlot) : Equipment :=
  if item.twoHanded then (e.put .mainHand (some item)).put .offHand (some item)
  else e.put (slot?.getD item.slot) (some item)

def clearItem (serial : Nat) (held : Option Item) : Option Item :=
  held.filter fun i => i.serial ≠ serial

/-- Takes the item at a slot out of every slot that holds it. -/
def unequip (e : Equipment) (slot : EquipmentSlot) : Option Item × Equipment :=
  match e.at? slot with
  | some item => (some item, e.mapValues (clearItem item.serial))
  | none => (none, e)

/-- The held items, one for each filled slot. -/
def held (e : Equipment) : List Item := e.values.filterMap id

def filledCount (e : Equipment) : Nat := e.held.length

def allFilled (e : Equipment) : Bool :=
  (Vocabulary.all : List EquipmentSlot).all fun slot => (e.at? slot).isSome

/-- The first of each serial number. -/
def distinct (items : List Item) : List Item :=
  items.foldl (fun seen i => if seen.any fun s => s.serial = i.serial then seen else seen ++ [i]) []

/-- The items, each once, in the order of the slots. -/
def items (e : Equipment) : List Item := distinct e.held

def raritySum (e : Equipment) : Nat := e.items.foldr (fun i n => i.rarity.rank + n) 0

end Equipment

end AffixRules
