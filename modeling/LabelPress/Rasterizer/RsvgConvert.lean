import LabelPress.Number.Shortest
import LabelPress.Rasterizer.Basic
import LabelPress.Text.Blank

/-!
# The command line tool

The tool reads a document from a folder made for the purpose and writes a picture beside it. The
folder is removed however the tool ends, and also if the tool cannot be asked: the document must be
one of characters, and the size must not be too long to be written.
-/

namespace LabelPress.Rasterizer

open LabelPress.Number

/-- How running a tool ends. -/
inductive ToolEnd
  /-- It could not be started. -/
  | notStarted (fault : Fault)
  /-- It took too long. -/
  | timedOut
  /-- It ended by itself with a code, after it wrote some texts and, it may be, a file. -/
  | exited (code : Int) (output errors : String) (file : Option (List UInt8))
deriving Repr

/-- The tool on a machine: its name there, the seconds that it may take, whether it is found, and
how it ends when a command line is run on a document. -/
structure RsvgConvert where
  executable : String := "rsvg-convert"
  limit : Option Quantity := some (.real (.ofRatio false 60 1))
  found : Bool
  run : (command : List String) → (document : String) → ToolEnd

namespace RsvgConvert

/-- The name under which the tool is selected. -/
def name : String := "rsvg-convert"

/-- The command line for a request in a folder. -/
def command (tool : RsvgConvert) (folder : String) (r : Request) : Except Fault (List String) := do
  return [tool.executable, "--format=png", "--width=" ++ (← writeInteger r.width),
    "--height=" ++ (← writeInteger r.height), "--background-color=white", folder ++ "/label.svg",
    "-o", folder ++ "/label.png"]

/-- What the tool is asked for in a folder: the document and then the command line. -/
def order (tool : RsvgConvert) (folder : String) (r : Request) :
    Except Fault (String × List String) := do
  let document ← r.characters
  return (document, ← tool.command folder r)

/-- The text of a limit. -/
def limitText : Option Quantity → String
  | some (.whole n) => integerText n
  | some (.real x) => x.text
  | none => "None"

/-- The wording for a command that took too long. -/
def timeoutText (command : List String) (limit : Option Quantity) : String :=
  "Command '[" ++ ", ".intercalate (command.map fun (s : String) => Text.quoted s)
    ++ "]' timed out after " ++ limitText limit ++ " seconds"

/-- The fault of a tool that could not run. -/
def couldNotRun (tool : RsvgConvert) (reason : String) : Fault :=
  .rasterizationFailed (tool.executable ++ " could not run: " ++ reason)

/-- The data that a run gives. -/
def dataOf (tool : RsvgConvert) (command : List String) : ToolEnd → Except Fault (List UInt8)
  | .notStarted fault => .error (tool.couldNotRun fault.message)
  | .timedOut => .error (tool.couldNotRun (timeoutText command tool.limit))
  | .exited code output errors file =>
    if code ≠ 0 then
      .error (.rasterizationFailed ("rsvg-convert failed: "
        ++ String.ofList (Text.trim (errors ++ output).toList)))
    else match file with
      | some bytes => .ok bytes
      | none => .error (.rasterizationFailed "Failed to read PNG from temporary file")

/-- The report on a command that is about to be run. -/
def runEntry (command : List String) : Journal.Entry :=
  ⟨.debug, .rasterizers, "Running " ++ " ".intercalate command⟩

/-- The tool as a rasterizer that works in a folder of its own. -/
def rasterizer (tool : RsvgConvert) (folder : String) : Rasterizer (List UInt8) where
  name := name
  available := tool.found
  rasterize r :=
    if tool.found then
      match tool.order folder r with
      | .error fault => ⟨[.folderMade folder, .folderRemoved folder], [], .error fault⟩
      | .ok (document, command) =>
        ⟨[.folderMade folder, .toolStarted command tool.limit document, .folderRemoved folder],
          [runEntry command], tool.dataOf command (tool.run command document)⟩
    else .of (.error (.rasterizerUnavailable (tool.executable ++ " not found on PATH")))

end RsvgConvert

end LabelPress.Rasterizer
