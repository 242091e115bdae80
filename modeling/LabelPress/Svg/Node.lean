/-!
# XML trees

A tree of elements and its text. Markup characters of texts and attribute values are written as
references, so that neither can be taken for markup; a style sheet stands in a CDATA section as it
is.
-/

namespace LabelPress.Svg

/-- A piece of a document. -/
inductive Node
  | element (tag : String) (attributes : List (String × String)) (content : List Node)
  | text (s : String)
  | cdata (s : String)

/-- A character of a text. -/
def escapeText (c : Char) : List Char :=
  if c = '&' then "&amp;".toList
  else if c = '<' then "&lt;".toList
  else if c = '>' then "&gt;".toList
  else [c]

/-- A character of an attribute value. -/
def escapeValue (c : Char) : List Char :=
  if c = '"' then "&quot;".toList
  else if c = '\r' then "&#13;".toList
  else if c = '\n' then "&#10;".toList
  else if c = '\t' then "&#09;".toList
  else escapeText c

/-- An attribute after a space. -/
def writeAttribute (a : String × String) : List Char :=
  ' ' :: a.1.toList ++ '=' :: '"' :: a.2.toList.flatMap escapeValue ++ ['"']

namespace Node

mutual

/-- The text of a piece. An element without content is a single tag. -/
def write : Node → List Char
  | element tag attributes content =>
    let opening := '<' :: tag.toList ++ attributes.flatMap writeAttribute
    if content.isEmpty then opening ++ " />".toList
    else opening ++ '>' :: writeAll content ++ '<' :: '/' :: tag.toList ++ ['>']
  | text s => s.toList.flatMap escapeText
  | cdata s => "<![CDATA[".toList ++ s.toList ++ "]]>".toList

/-- The text of pieces one after the other. -/
def writeAll : List Node → List Char
  | [] => []
  | n :: rest => write n ++ writeAll rest

end

end Node

/-- The line before the root of a document. -/
def declaration : String := "<?xml version=\"1.0\" encoding=\"utf-8\" ?>\n"

end LabelPress.Svg
