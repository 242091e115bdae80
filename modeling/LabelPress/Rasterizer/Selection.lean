import LabelPress.Rasterizer.Cairo
import LabelPress.Rasterizer.RsvgConvert
import LabelPress.Settings.Value

/-!
# Selecting rasterizers

A setting names the known rasterizers to be tried and their order.
-/

namespace LabelPress.Rasterizer

open LabelPress.Settings

/-- The known rasterizers. -/
inductive Known
  | rsvgConvert
  | cairo
deriving DecidableEq, Repr

namespace Known

/-- The name of a known rasterizer. -/
def name : Known → String
  | rsvgConvert => RsvgConvert.name
  | cairo => CairoLibrary.name

/-- All known rasterizers, in the order in which they are tried if none are named. -/
def all : List Known := [rsvgConvert, cairo]

/-- The names of the known rasterizers in the order of the alphabet, in their shown form. -/
def shownNames : String :=
  (Value.list (((all.map name).mergeSort (· ≤ ·)).map fun (s : String) => .text s)).shown

/-- The known rasterizer that a value names. -/
def ofValue : Value → Except Fault Known
  | .text s =>
    match all.find? fun k => s = (k.name : Text.CodePoints) with
    | some k => .ok k
    | none => .error (.unknownRasterizer (Text.quoted s) shownNames)
  | .list items => .error (.notAName (Value.list items).kindName)
  | .object entries => .error (.notAName (Value.object entries).kindName)
  | v => .error (.unknownRasterizer v.shown shownNames)

/-- The items of a setting: those of a list, the code points of a text, the keys of an object. -/
def items : Value → Except Fault (List Value)
  | .list vs => .ok vs
  | .text s => .ok (s.map fun p => .text [p])
  | .object entries => .ok (entries.map fun e => .text e.1)
  | v => .error (.noItems v.kindName)

/-- The known rasterizers that a setting names; all of them if it is null. -/
def select : Value → Except Fault (List Known)
  | .null => .ok all
  | v => do (← items v).mapM ofValue

end Known

/-- What a machine has to rasterize with: the tool with a folder for its work, and the library. -/
structure Machine where
  tool : RsvgConvert
  folder : String
  library : CairoLibrary

/-- A known rasterizer on a machine. -/
def Machine.rasterizer (m : Machine) : Known → Rasterizer (List UInt8)
  | .rsvgConvert => m.tool.rasterizer m.folder
  | .cairo => m.library.rasterizer

/-- The chain of the known rasterizers that a setting names. One that is named again is made again,
and need not answer as it did before. -/
def selectChainAt {δ : Type} (make : (place : Nat) → Known → Rasterizer δ) (names : Value) :
    Except Fault (Rasterizer δ) := do
  chain ((← Known.select names).mapIdx make)

/-- The chain of the known rasterizers that a setting names, if they answer alike in all places. -/
def selectChain {δ : Type} (make : Known → Rasterizer δ) (names : Value) :
    Except Fault (Rasterizer δ) :=
  selectChainAt (fun _ => make) names

end LabelPress.Rasterizer
