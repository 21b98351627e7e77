import RubySupervisor.Files.Tree
import RubySupervisor.Json.Field
import RubySupervisor.Text.Digit

/-!
# File trees from listings

A listing is an object from paths to entries: a text is a file, `null` a directory, and an object
gives the bytes of a file, the text of an executable one, or the target of a link. Directories
above an entry come into being with it.
-/

namespace RubySupervisor.FileTree

/-- The bytes of pairs of hexadecimal digits. -/
def hexBytes : List Char → List UInt8
  | a :: b :: rest =>
    UInt8.ofNat ((Text.hexValue? a).getD 0 * 16 + (Text.hexValue? b).getD 0) :: hexBytes rest
  | _ => []

/-- Where a file at a path is put: behind the links of its path. -/
def placeOf (t : FileTree) (p : Path) : Location :=
  match t.resolve true p with
  | .ok (.found at_ _) => at_
  | .ok (.absent at_) => at_
  | .error _ => steps p.text

/-- Where a link at a path is put. -/
def linkPlaceOf (t : FileTree) (p : Path) : Location :=
  match t.resolve false (withoutEnd p) with
  | .ok (.found at_ _) => at_
  | .ok (.absent at_) => at_
  | .error _ => steps p.text

/-- The tree with an entry of a listing; an entry that cannot be made is left out. -/
def withListed (t : FileTree) (p : Path) (entry : Json) : FileTree :=
  let t := match p.parent? with
    | some parent => (t.makeDirectories parent).toOption.getD t
    | none => t
  let written (bytes : ByteArray) : FileTree := (t.writeBytes p bytes).toOption.getD t
  match entry with
  | .text s => written s.toUTF8
  | .null => (t.makeDirectories p).toOption.getD t
  | j =>
    match j.textAt? "hex", j.textAt? "exec", j.textAt? "link" with
    | some digits, _, _ => written ⟨(hexBytes digits.toList).toArray⟩
    | _, some script, _ => t.set (t.placeOf p) (.file script.toUTF8 true)
    | _, _, some target => t.set (t.linkPlaceOf p) (.link target)
    | _, _, _ => t

/-- The tree with the entries of a listing, their paths seen from a directory. -/
def withListing (t : FileTree) (directory : Path) (listing : List (String × Json)) : FileTree :=
  listing.foldl (fun t entry => t.withListed (directory.join entry.1) entry.2) t

end RubySupervisor.FileTree
