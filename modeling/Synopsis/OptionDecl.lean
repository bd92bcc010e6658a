import Synopsis.Datum

/-! Options: a short name, a long name or both, and either a flag or a value. -/
namespace Synopsis

/-- A short name is a dash and any characters, of which the first is not another dash. -/
def isShortName (s : String) : Bool :=
  match s.toList with
  | '-' :: '-' :: _ => false
  | '-' :: _ => true
  | _ => false

/-- A long name is two dashes and at least one character. -/
def isLongName (s : String) : Bool :=
  match s.toList with
  | '-' :: '-' :: _ :: _ => true
  | _ => false

/-- The spellings of the number of arguments of a flag. -/
inductive NoArgument where
  | int | float | negativeFloat
  deriving DecidableEq, Repr

/-- The spellings of the number of arguments of an option with a value. -/
inductive OneArgument where
  | int | float
  deriving DecidableEq, Repr

/-- A flag is on or off; an option with a value holds its default or the value it was given. -/
inductive Slot where
  | flag (count : NoArgument) (on : Bool)
  | valued (count : OneArgument) (value : Datum)
  deriving Repr

namespace Slot

def takesValue : Slot → Bool
  | flag .. => false
  | valued .. => true

def value : Slot → Datum
  | flag _ on => .bool on
  | valued _ v => v

/-- The number of arguments, as it was spelled. -/
def count : Slot → Datum
  | flag .int _ => .int 0
  | flag .float _ => .float ⟨0⟩
  | flag .negativeFloat _ => .float ⟨0x8000000000000000⟩
  | valued .int _ => .int 1
  | valued .float _ => .float ⟨0x3ff0000000000000⟩

/-- The slot of an option that was met: a flag is switched on. -/
def switchedOn : Slot → Slot
  | flag c _ => flag c true
  | valued c v => valued c v

/-- The slot of an option that was given a text: a flag holds none. -/
def holding (s : String) : Slot → Slot
  | flag c on => flag c on
  | valued c _ => valued c (.text s)

end Slot

/-- At least one name, and each name well formed. -/
def Named (short long : Option String) : Prop :=
  (short.isSome || long.isSome) && short.all isShortName && long.all isLongName

instance (short long : Option String) : Decidable (Named short long) :=
  inferInstanceAs (Decidable (_ = true))

structure OptionDecl where
  short : Option String
  long : Option String
  slot : Slot
  named : Named short long
  deriving Repr

/-- The options declared so far, in order. -/
abbrev Registry := List OptionDecl

namespace OptionDecl

def name (o : OptionDecl) : String := (o.long.or o.short).getD ""

def takesValue (o : OptionDecl) : Bool := o.slot.takesValue

def switchedOn (o : OptionDecl) : OptionDecl := { o with slot := o.slot.switchedOn }

def holding (o : OptionDecl) (s : String) : OptionDecl := { o with slot := o.slot.holding s }

def shortOf (c : Char) : String := String.ofList ['-', c]

theorem named_shortOf {c : Char} (h : c ≠ '-') : Named (some (shortOf c)) none := by
  unfold Named
  simp only [Option.isSome_some, Bool.true_or, Option.all_some, Option.all_none, Bool.and_true,
    Bool.true_and, isShortName, shortOf, String.toList_ofList]
  split
  · rename_i heq
    simp only [List.cons.injEq, true_and] at heq
    exact absurd heq.1 h
  · rfl
  · rename_i heq
    exact absurd rfl (heq [c])

def ofChar (c : Char) (h : c ≠ '-') : OptionDecl :=
  ⟨some (shortOf c), none, .flag .int false, named_shortOf h⟩

theorem named_long {long : String} (h : isLongName long = true) : Named none (some long) := by
  simp [Named, h]

def ofLong (long : String) (slot : Slot) (h : isLongName long = true) : OptionDecl :=
  ⟨none, some long, slot, named_long h⟩

end OptionDecl

end Synopsis
