import LabelPress.Entries
import LabelPress.Number.Quantity
import LabelPress.Number.Shortest
import LabelPress.Text.Quoted

/-!
# Values of settings

A setting may hold anything that a settings file can spell, so its texts are of code points. The
shown form of a value stands in reports: words for the constants, numerals, quoted texts, and
brackets around what is nested.
-/

namespace LabelPress.Settings

open LabelPress.Number

/-- A value of a setting. The entries of an object keep their order. -/
inductive Value
  | null
  | bool (b : Bool)
  | int (n : Int)
  | float (x : Binary64)
  | text (s : Text.CodePoints)
  | list (items : List Value)
  | object (entries : List (Text.CodePoints × Value))
deriving Repr

namespace Value

instance : Inhabited Value := ⟨null⟩

/-- What kind of value it is. -/
def kindName : Value → String
  | null => "NoneType"
  | bool _ => "bool"
  | int _ => "int"
  | float _ => "float"
  | text _ => "str"
  | list _ => "list"
  | object _ => "dict"

/-- The quantity that a value is. The truth values count as one and zero. -/
def quantity? : Value → Option Quantity
  | bool b => some (.whole (if b then 1 else 0))
  | int n => some (.whole n)
  | float x => some (.real x)
  | _ => none

/-- The integer that a value is. The truth values count as one and zero. -/
def integer? (v : Value) : Option Int :=
  match v.quantity? with
  | some (.whole n) => some n
  | _ => none

mutual

/-- The shown form of a value. -/
def shown : Value → String
  | null => "None"
  | bool b => if b then "True" else "False"
  | int n => integerText n
  | float x => x.text
  | text s => Text.quoted s
  | list items => "[" ++ ", ".intercalate (shownItems items) ++ "]"
  | object entries => "\x7b" ++ ", ".intercalate (shownEntries entries) ++ "\x7d"

/-- The shown forms of the items of a list. -/
def shownItems : List Value → List String
  | [] => []
  | v :: rest => shown v :: shownItems rest

/-- The shown forms of the entries of an object. -/
def shownEntries : List (Text.CodePoints × Value) → List String
  | [] => []
  | (key, v) :: rest => (Text.quoted key ++ ": " ++ shown v) :: shownEntries rest

end

mutual

/-- Whether a value has a shown form: no integer in it has more digits than may be written. -/
def isShowable : Value → Bool
  | int n => isWritable n
  | list items => areShowable items
  | object entries => haveShowable entries
  | _ => true

/-- Whether the items of a list have shown forms. -/
def areShowable : List Value → Bool
  | [] => true
  | v :: rest => isShowable v && areShowable rest

/-- Whether the values of an object have shown forms. -/
def haveShowable : List (Text.CodePoints × Value) → Bool
  | [] => true
  | (_, v) :: rest => isShowable v && haveShowable rest

end

end Value

end LabelPress.Settings
