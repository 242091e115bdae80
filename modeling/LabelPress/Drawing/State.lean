import LabelPress.Command.Basic

/-!
# The drawing state

What earlier commands have set when a command is reached. The scan for layouts and the scan that
paints differ only in the commands that reset the reverse flag, so both are runs of one transition
under rules of their own.
-/

namespace LabelPress

/-- A position, a font and whether to invert: what an item of text needs. -/
structure Layout where
  x : Int
  y : Int
  fontHeight : Int := 30
  fontWidth : Int := 30
  reverse : Bool := false
deriving DecidableEq, Repr

/-- Everything that commands set: a layout and the settings of symbols. -/
structure DrawingState extends Layout where
  moduleWidth : Int := 2
  symbolHeight : Int := 100
  symbolFlag : String := "Y"
deriving DecidableEq, Repr

namespace DrawingState

/-- The state before the first command. -/
def initial : DrawingState where
  x := 0
  y := 0

/-- The state with a layout and nothing else set. -/
def ofLayout (layout : Layout) : DrawingState where
  toLayout := layout

/-- The state with the reverse flag reset. -/
def upright (s : DrawingState) : DrawingState := { s with reverse := false }

/-- The commands that reset the reverse flag besides the graphic box. -/
structure ResetRules where
  origin : Bool
  separator : Bool
  fieldNumber : Bool
deriving DecidableEq, Repr

/-- While layouts are collected a field consumes the flag, and origins and separators leave it. -/
def ResetRules.layout : ResetRules := ⟨false, false, true⟩

/-- While items are painted a new origin or the end of a field drops the flag. -/
def ResetRules.painting : ResetRules := ⟨true, true, false⟩

/-- Whether a command resets the reverse flag. A box always does, as the flag belongs to it. -/
def ResetRules.resets (rules : ResetRules) : Command → Bool
  | .fieldOrigin .. => rules.origin
  | .fieldSeparator => rules.separator
  | .fieldNumber _ => rules.fieldNumber
  | .graphicBox _ => true
  | _ => false

/-- The state with what a command sets, the reverse flag apart. -/
def set (s : DrawingState) : Command → DrawingState
  | .fieldFont height width => { s with fontHeight := height, fontWidth := width }
  | .fieldOrigin x y => { s with x := x, y := y }
  | .moduleWidth width => { s with moduleWidth := width }
  | .code128 height flag => { s with symbolHeight := height, symbolFlag := flag }
  | _ => s

/-- The state after a command. -/
def advance (rules : ResetRules) (s : DrawingState) (c : Command) : DrawingState :=
  { s.set c with
    reverse := c = .fieldReverse || (s.reverse && !rules.resets c) }

/-- The state after commands. -/
def run (rules : ResetRules) (s : DrawingState) (cs : List Command) : DrawingState :=
  cs.foldl (advance rules) s

@[simp] theorem run_nil (rules : ResetRules) (s : DrawingState) : run rules s [] = s := rfl

@[simp] theorem run_cons (rules : ResetRules) (s : DrawingState) (c : Command)
    (cs : List Command) : run rules s (c :: cs) = run rules (advance rules s c) cs := rfl

@[simp] theorem run_append (rules : ResetRules) (s : DrawingState) (cs ds : List Command) :
    run rules s (cs ++ ds) = run rules (run rules s cs) ds := List.foldl_append

/-- The states after each of the commands. -/
def states (rules : ResetRules) (s : DrawingState) : List Command → List DrawingState
  | [] => []
  | c :: cs => advance rules s c :: states rules (advance rules s c) cs

end DrawingState

end LabelPress
