import CurlSnippet.Entries
import CurlSnippet.Path
import CurlSnippet.Quoted
import CurlSnippet.Utf8

/-!
The files a run can see: those below the working directory and each directory above it, those below
the root, and those of the project's own directory. A file holds bytes, which need not be a text.
-/

namespace CurlSnippet

/-- Files by their path from a directory. `upward` starts with those of the working directory; every
entry after it is for the next directory above. A folder is there if a path leads through it, so a
path that ends in a slash stands for an empty folder. -/
structure Files where
  upward : List (Entries String Bytes)
  rooted : Entries String Bytes
  project : Entries String Bytes
  deriving DecidableEq, Repr

namespace Files

/-- Files with these texts in the working directory. -/
def ofTexts (texts : Entries String String) : Files :=
  ⟨[texts.map fun t => (t.1, Utf8.encode t.2)], [], []⟩

/-- Text with every line end written as a line feed. -/
def unifyLineEnds : List Char → List Char
  | '\r' :: '\n' :: rest => '\n' :: unifyLineEnds rest
  | '\r' :: rest => '\n' :: unifyLineEnds rest
  | c :: rest => c :: unifyLineEnds rest
  | [] => []

def unified (s : String) : String := String.ofList (unifyLineEnds s.toList)

/-- What a path leads to. -/
inductive Found where
  | file (bytes : Bytes)
  | folder
  | missing
  | notAFolder
  | tooLong
  deriving DecidableEq, Repr

/-- A directory from which names are followed: one so many levels above the working directory, or
the root. -/
inductive Base where
  | above (levels : Nat)
  | root
  deriving DecidableEq, Repr

/-- The root is its own parent. -/
def Base.parent : Base → Base
  | above n => above (n + 1)
  | root => root

def Base.ofPath (p : Path) : Base := if p.root = "" then above 0 else root

def table (files : Files) : Base → Entries String Bytes
  | .above n => files.upward.getD n []
  | .root => files.rooted

/-- The most bytes that a path may have. -/
def maxPathBytes : Nat := 4095

/-- The most bytes that a name in a path may have. -/
def maxNameBytes : Nat := 255

/-- Follows the names of a path from the folder that lies `within` a base. A name that is too long
is a fault only where it is reached. -/
def follow (files : Files) (base : Base) (within : List String) : List String → Found
  | [] => .folder
  | name :: rest =>
    if name = ".." then
      if within.isEmpty then follow files base.parent [] rest
      else follow files base within.dropLast rest
    else if maxNameBytes < (Utf8.encode name).length then .tooLong
    else
      let path := "/".intercalate (within ++ [name])
      match (files.table base).get? path with
      | some bytes => if rest.isEmpty then .file bytes else .notAFolder
      | none =>
        if (files.table base).any fun f => (path ++ "/").toList.isPrefixOf f.1.toList then
          follow files base (within ++ [name]) rest
        else .missing

/-- What a path leads to. Nothing has a null character in its name. -/
def find (files : Files) (p : Path) : Found :=
  if p.text.toList.contains '\x00' then .missing
  else if maxPathBytes < (Utf8.encode p.text).length then .tooLong
  else follow files (.ofPath p) [] p.names

/-- What a name in the directory of the project leads to. -/
def inProject (files : Files) (name : String) : Found :=
  match files.project.get? name with
  | some bytes => .file bytes
  | none =>
    if files.project.any fun f => (name ++ "/").toList.isPrefixOf f.1.toList then .folder
    else .missing

/-- Where a path leads if all folders on the way are there. -/
def goal (p : Path) : Base × List String :=
  p.names.foldl (fun g name =>
    if name = ".." then if g.2.isEmpty then (g.1.parent, []) else (g.1, g.2.dropLast)
    else (g.1, g.2 ++ [name])) (.ofPath p, [])

/-- The files with these contents, as seen from a working directory of a certain depth. -/
def ofContents (depth : Nat) (project : Entries String Bytes) (contents : List (Path × Bytes)) :
    Files :=
  let below (base : Base) : Entries String Bytes := .ofPairs (contents.filterMap fun c =>
    let (b, names) := goal c.1
    if b = base then some ("/".intercalate names, c.2) else none)
  ⟨(List.range (depth + 1)).map fun n => below (.above n), below .root, project⟩

/-- Why a file cannot be read. -/
inductive ReadError where
  | missing (p : Path)
  | folder (p : Path)
  | notAFolder (p : Path)
  | tooLong (p : Path)
  | undecodable (fault : Utf8.Fault)
  deriving DecidableEq, Repr

def ReadError.message : ReadError → String
  | missing p => "[Errno 2] No such file or directory: " ++ quoted p.text
  | folder p => "[Errno 21] Is a directory: " ++ quoted p.text
  | notAFolder p => "[Errno 20] Not a directory: " ++ quoted p.text
  | tooLong p => "[Errno 36] File name too long: " ++ quoted p.text
  | undecodable fault => fault.message

/-- The text of bytes, with unified line ends. -/
def textOf (bytes : Bytes) : Except Utf8.Fault String := (Utf8.decode bytes).map unified

/-- The text of a file, with unified line ends. -/
def read (files : Files) (p : Path) : Except ReadError String :=
  match files.find p with
  | .file bytes => (textOf bytes).mapError .undecodable
  | .folder => .error (.folder p)
  | .missing => .error (.missing p)
  | .notAFolder => .error (.notAFolder p)
  | .tooLong => .error (.tooLong p)

end Files

end CurlSnippet
