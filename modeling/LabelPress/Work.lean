import LabelPress.Bitmap.Saving
import LabelPress.Files.Tree
import LabelPress.Number.Quantity
import LabelPress.Rasterizer.Request
import LabelPress.Reported

/-!
# Work outside the program

Work is a result with its reports and with the deeds that led to it: rasterizers asked, folders
made and removed, tools run, files written. What the deeds leave behind is a fold over them.
-/

namespace LabelPress

open LabelPress.Number

/-- Something done outside the program. -/
inductive Deed
  /-- A rasterizer that is known by its name alone was asked. -/
  | asked (rasterizer : String) (request : Rasterizer.Request)
  /-- A folder was made for a while. -/
  | folderMade (path : String)
  /-- A folder was removed with all in it. -/
  | folderRemoved (path : String)
  /-- A tool was started on a document, with a limit on the seconds that it may take. -/
  | toolStarted (command : List String) (limit : Option Quantity) (document : String)
  /-- A library was called to draw a document on a ground. -/
  | libraryCalled (request : Rasterizer.Request) (ground : String)
  /-- An encoder was asked for a file. -/
  | encoderAsked (saving : Bitmap.Saving)
  /-- A file was written. -/
  | fileWritten (path : String) (bytes : List UInt8)
  /-- A file was removed. -/
  | fileRemoved (path : String)

namespace Deed

/-- The folders that are left after a deed. -/
def foldersAfter (folders : List String) : Deed → List String
  | folderMade path => folders ++ [path]
  | folderRemoved path => folders.erase path
  | _ => folders

/-- The folders that deeds leave behind. -/
def foldersLeft (deeds : List Deed) : List String := deeds.foldl foldersAfter []

/-- The files after a deed. -/
def filesAfter (files : Files.Tree) : Deed → Files.Tree
  | fileWritten path bytes => files.write path (.file bytes)
  | fileRemoved path => files.delete path
  | _ => files

/-- The files that deeds leave behind. -/
def filesLeft (files : Files.Tree) (deeds : List Deed) : Files.Tree := deeds.foldl filesAfter files

end Deed

/-- A result, or the fault in its place, with the deeds and the reports up to there. -/
structure Work (α : Type) where
  deeds : List Deed
  journal : List Journal.Entry
  result : Except Fault α

namespace Work

variable {α β : Type}

/-- A result without deeds. -/
def ofReported (r : Reported α) : Work α := ⟨[], r.journal, r.result⟩

/-- A result without deeds and reports. -/
def of (result : Except Fault α) : Work α := ⟨[], [], result⟩

/-- What follows a result, unless there is none. -/
def andThen (w : Work α) (next : α → Work β) : Work β :=
  match w.result with
  | .error fault => ⟨w.deeds, w.journal, .error fault⟩
  | .ok a => ⟨w.deeds ++ (next a).deeds, w.journal ++ (next a).journal, (next a).result⟩

@[simp] theorem result_andThen (w : Work α) (next : α → Work β) :
    (w.andThen next).result = w.result.bind fun a => (next a).result := by
  unfold andThen
  cases h : w.result <;> rfl

theorem deeds_andThen {w : Work α} {a : α} (h : w.result = .ok a) (next : α → Work β) :
    (w.andThen next).deeds = w.deeds ++ (next a).deeds := by
  simp only [andThen, h]

theorem deeds_andThen_of_error {w : Work α} {fault : Fault} (h : w.result = .error fault)
    (next : α → Work β) : (w.andThen next).deeds = w.deeds := by
  simp only [andThen, h]

/-- What does nothing outside the program adds no deeds. -/
theorem deeds_andThen_of_idle {w : Work α} {next : α → Work β} (h : ∀ a, (next a).deeds = []) :
    (w.andThen next).deeds = w.deeds := by
  rw [andThen]
  split <;> simp [h]

end Work

end LabelPress
