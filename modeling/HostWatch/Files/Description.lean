import HostWatch.Files.Basic
import HostWatch.Value.Access

/-!
# Descriptions of files

A tree of files can be described by a list of changes, each an object: it names the place of a file
to write with its content, of a directory to make, of a link with what it leads to, or of something
to remove. A change that cannot be made is passed over.
-/

namespace HostWatch

/-- The value of a digit in base sixteen. -/
def hexDigit (c : Char) : Nat := "0123456789abcdef".toList.idxOf c.toLower

/-- The bytes that pairs of digits in base sixteen stand for. -/
def bytesOfHex : List Char → List UInt8
  | a :: b :: rest => UInt8.ofNat (hexDigit a * 16 + hexDigit b) :: bytesOfHex rest
  | _ => []

/-- The content of a file: a text, or bytes written in base sixteen. -/
def Content.ofValue (v : Value) : Content :=
  match v.part? "hex" with
  | some digits =>
    let bytes := ByteArray.mk (bytesOfHex digits.toText.toList).toArray
    ((String.fromUTF8? bytes).map Content.text).getD (.bytes bytes)
  | none => .text (v.textAt "text")

namespace Files

/-- The tree after a change, or the tree as it is if there is none. -/
def orSame (f : Files) (changed : Except FileProblem Files) : Files := changed.toOption.getD f

/-- Makes a link, with the directories that lead to it. -/
def putLink (f : Files) (l : Location) (target : String) : Files :=
  let f := f.orSame (f.makeDirectories l.parent)
  f.orSame (f.link l target)

/-- The tree after a change. -/
def change (f : Files) (v : Value) : Files :=
  let at? (name : String) := (v.part? name).map fun path => Location.parse path.toText
  if let some l := at? "write" then
    let f := f.put l (.ofValue v)
    ((v.get "mtime_ns").toInt?.map (f.stamp l)).getD f
  else if let some l := at? "mkdir" then f.orSame (f.makeDirectories l)
  else if let some l := at? "link" then f.putLink l (v.textAt "to")
  else ((at? "remove" <|> at? "rmdir").map f.remove).getD f

/-- The tree after the changes that a description lists under `files`. -/
def describedBy (f : Files) (v : Value) : Files := (v.get "files").items.foldl change f

end Files

end HostWatch
