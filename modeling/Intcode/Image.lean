import Intcode.Json.Record
import Intcode.Json.Writer
import Intcode.Program

/-!
# Program images as JSON

The JSON form of a program is a record with the single field `cells`, the list of its words.
-/
namespace Intcode.Program

/-- A program as a JSON value. -/
def toJson (p : Program) : Json.Value := .record [("cells", .words p.cells.toList)]

/-- The program that a JSON value stands for. -/
def ofJson? (v : Json.Value) : Option Program := do
  let record ← Json.Record.ofValue? ["cells"] v
  let cells ← record.required "cells" Json.Value.toWords?
  return ⟨cells.toArray⟩

/-- The program image as a JSON text. -/
def imageText (p : Program) : String := p.toJson.compact

/-- The program that a JSON text stands for. -/
def ofImage? (text : String) : Option Program := (Json.read? text).bind ofJson?

end Intcode.Program
