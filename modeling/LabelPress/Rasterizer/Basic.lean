import LabelPress.Number.Numeral
import LabelPress.Work

/-!
# Rasterizers

A rasterizer turns a document into data, whose kind is left open. A chain asks its rasterizers one
after the other for the same thing. One that is unavailable or fails lets the next one try; any
other fault is not the chain's to handle.
-/

namespace LabelPress

/-- Something that may turn a document into data. -/
structure Rasterizer (δ : Type) where
  name : String
  available : Bool
  rasterize : Rasterizer.Request → Work δ

namespace Rasterizer

open LabelPress.Number

variable {δ : Type}

/-- The rasterizer of a name that gives certain answers. -/
def answering (name : String) (available : Bool) (answer : Request → Except Fault δ) :
    Rasterizer δ where
  name := name
  available := available
  rasterize r := ⟨[.asked name r], [], answer r⟩

/-- The report on a fault that lets the next rasterizer try. -/
def failureEntry? (name : String) : Fault → Option Journal.Entry
  | .rasterizerUnavailable detail =>
    some ⟨.debug, .rasterizers, "Rasterizer " ++ name ++ " unavailable: " ++ detail⟩
  | .rasterizationFailed detail =>
    some ⟨.warning, .rasterizers,
      "Rasterizer " ++ name ++ " failed, falling back: " ++ detail⟩
  | _ => none

/-- The report on a rasterizer that gave data. -/
def successEntry (name : String) (r : Request) : Journal.Entry :=
  ⟨.debug, .rasterizers,
    "Rasterized " ++ integerText r.width ++ "x" ++ integerText r.height ++ " with " ++ name⟩

/-- The fault of a chain whose rasterizers all failed, with what each of them said. -/
def allFailed (failures : List String) : Fault :=
  .rasterizationFailed ("All rasterizers failed: " ++ "; ".intercalate failures)

/-- What asking rasterizers one after the other comes to. `failures` is what those before said. -/
def askFrom (r : Request) (failures : List String) : List (Rasterizer δ) → Work δ
  | [] => .of (.error (allFailed failures))
  | s :: rest =>
    let asked := s.rasterize r
    match asked.result with
    | .ok _ => { asked with journal := asked.journal ++ [successEntry s.name r] }
    | .error fault =>
      match failureEntry? s.name fault with
      | none => asked
      | some entry =>
        let others := askFrom r (failures ++ [s.name ++ ": " ++ fault.message]) rest
        ⟨asked.deeds ++ others.deeds, asked.journal ++ entry :: others.journal, others.result⟩

/-- A chain of rasterizers, of which there must be one. -/
def chain : List (Rasterizer δ) → Except Fault (Rasterizer δ)
  | [] => .error .emptyChain
  | s :: rest => .ok
    { name := "chain",
      available := (s :: rest).any (·.available),
      rasterize := fun r => askFrom r [] (s :: rest) }

end Rasterizer

end LabelPress
