import NovelScript.Files.Path
import NovelScript.Log.Record
import NovelScript.Text.Quoted

/-!
# A file tree

A `Disk` holds directories and files by their names from the root on, and a working directory from
which relative paths start. A path is followed name by name: each name but the last must be a
directory, and neither a name nor a whole path may be too long. Operations that fail say why and on
which path (`FileError`), and leave the disk as it was.
-/

set_option autoImplicit false

namespace NovelScript

/-- The names that lead from the root to a place. -/
abbrev Location := List String

inductive Node where
  | directory
  | file (content : List UInt8)
  deriving DecidableEq, Repr

/-- Why the system refuses an operation: its number and its words. -/
structure Refusal where
  number : Nat
  words : String
  deriving DecidableEq, Repr

namespace Refusal

def notFound : Refusal := ⟨2, "No such file or directory"⟩

def present : Refusal := ⟨17, "File exists"⟩

def notDirectory : Refusal := ⟨20, "Not a directory"⟩

def isDirectory : Refusal := ⟨21, "Is a directory"⟩

def nameTooLong : Refusal := ⟨36, "File name too long"⟩

/-- Whether the refusal says no more than that a path leads nowhere. -/
def isAbsence (r : Refusal) : Bool :=
  r = notFound || r = notDirectory

end Refusal

/-- Why an operation on files fails. -/
inductive FileError where
  /-- The system refuses it on a path, or on two. -/
  | refused (refusal : Refusal) (path : String) (target : Option String)
  /-- A path holds the null character, so that the system is not even asked. -/
  | nullCharacter
  deriving DecidableEq, Repr

namespace FileError

def quotedPath (path : String) : String :=
  String.ofList (Text.quoted path.toList)

def message : FileError → String
  | refused r path none =>
    "[Errno " ++ countText r.number ++ "] " ++ r.words ++ ": " ++ quotedPath path
  | refused r path (some target) =>
    "[Errno " ++ countText r.number ++ "] " ++ r.words ++ ": " ++ quotedPath path ++ " -> " ++
      quotedPath target
  | nullCharacter => "embedded null byte"

/-- Whether the system refused the operation. -/
def isRefusal : FileError → Bool
  | refused .. => true
  | nullCharacter => false

end FileError

structure Disk where
  nodes : List (Location × Node) := []
  /-- The working directory. -/
  home : Location := []
  deriving Repr

namespace Disk

/-! ## Places -/

/-- What is at a place; the root is always a directory. -/
def node? (d : Disk) (place : Location) : Option Node :=
  if place = [] then some .directory else (d.nodes.find? fun n => n.1 = place).map (·.2)

/-- Puts a node at a place. -/
def put (d : Disk) (place : Location) (node : Node) : Disk :=
  { d with nodes := (place, node) :: d.nodes.filter fun n => n.1 ≠ place }

/-- Removes what is at a place and below it. -/
def remove (d : Disk) (place : Location) : Disk :=
  { d with nodes := d.nodes.filter fun n => !place.isPrefixOf n.1 }

/-- Where a path starts. -/
def start (d : Disk) (p : FilePath) : Location :=
  match p.start with
  | .home => d.home
  | _ => []

/-- The place of a path, whatever is there. -/
def resolve (d : Disk) (p : FilePath) : Location :=
  (p.normal d.home).names

/-- Whether the null character is in a path. -/
def holdsNull (path : String) : Bool :=
  path.toList.contains '\x00'

/-- Whether the bytes of a name are too many. -/
def isLongName (name : String) : Bool :=
  255 < name.utf8ByteSize

/-- Whether the bytes of a path are too many. -/
def isLongPath (path : String) : Bool :=
  4096 ≤ path.utf8ByteSize

/-- The place that names lead to; each of them needs a directory to start from. -/
def walk (d : Disk) (place : Location) : List String → Except Refusal Location
  | [] => .ok place
  | name :: rest =>
    match d.node? place with
    | none => .error .notFound
    | some (.file _) => .error .notDirectory
    | some .directory =>
      if name = ".." then d.walk place.dropLast rest
      else if isLongName name then .error .nameTooLong
      else d.walk (place ++ [name]) rest

def locate (d : Disk) (p : FilePath) : Except FileError Location :=
  if holdsNull p.text then .error .nullCharacter
  else if isLongPath p.text then .error (.refused .nameTooLong p.text none)
  else
    match d.walk (d.start p) p.names with
    | .ok place => .ok place
    | .error r => .error (.refused r p.text none)

/-- What a path leads to. -/
def lookup? (d : Disk) (p : FilePath) : Option Node :=
  match d.locate p with
  | .ok place => d.node? place
  | .error _ => none

/-- What a path leads to, which may be nothing; it fails where the system refuses to say. -/
def find (d : Disk) (p : FilePath) : Except FileError (Option Node) :=
  match d.locate p with
  | .ok place => .ok (d.node? place)
  | .error .nullCharacter => .ok none
  | .error (.refused r path target) =>
    if r.isAbsence then .ok none else .error (.refused r path target)

def isFile (d : Disk) (p : FilePath) : Except FileError Bool :=
  match d.find p with
  | .error e => .error e
  | .ok (some (.file _)) => .ok true
  | .ok _ => .ok false

/-- What a path as it is typed leads to. The empty path leads nowhere, and a path that ends in a
slash or a dot does not lead to a file. -/
def findTyped (d : Disk) (typed : String) : Except FileError (Option Node) :=
  if holdsNull typed then .error .nullCharacter
  else if typed = "" || isLongPath typed then .ok none
  else
    match d.lookup? (.ofText typed) with
    | some (.file content) =>
      let last := (FilePath.pieces typed).getLast?.getD ""
      .ok (if last = "" || last = "." then none else some (.file content))
    | node => .ok node

/-! ## Operations -/

def read (d : Disk) (p : FilePath) : Except FileError (List UInt8) :=
  match d.locate p with
  | .error e => .error e
  | .ok place =>
    match d.node? place with
    | none => .error (.refused .notFound p.text none)
    | some .directory => .error (.refused .isDirectory p.text none)
    | some (.file content) => .ok content

/-- Writes a file, a new one or over an old one. -/
def write (d : Disk) (p : FilePath) (content : List UInt8) : Except FileError Disk :=
  match d.locate p with
  | .error e => .error e
  | .ok place =>
    if d.node? place = some .directory then .error (.refused .isDirectory p.text none)
    else .ok (d.put place (.file content))

/-- Adds a directory at each of the places that is empty. -/
def addDirectories (d : Disk) (places : List Location) : Disk :=
  places.foldl (fun d place => if (d.node? place).isNone then d.put place .directory else d) d

/-- The places above a place, from the root on. -/
def above (place : Location) : List Location :=
  (List.range place.length).map fun n => place.take n

/-- Makes a directory and those above it, as far as they are missing. -/
def makeDirectories (d : Disk) (p : FilePath) : Except FileError Disk :=
  let place := d.resolve p
  let isFileAt := fun (place : Location) =>
    match d.node? place with
    | some (.file _) => true
    | _ => false
  if holdsNull p.text then .error .nullCharacter
  else if (above place).any isFileAt then .error (.refused .notDirectory p.text none)
  else if isFileAt place then .error (.refused .present p.text none)
  else if isLongPath p.text || place.any isLongName then
    .error (.refused .nameTooLong p.text none)
  else .ok (d.addDirectories (above place ++ [place]))

/-- Moves a file to another place, over a file that is there. -/
def replace (d : Disk) (source target : FilePath) : Except FileError Disk :=
  let refuse := fun (r : Refusal) =>
    (.error (.refused r source.text (some target.text)) : Except FileError Disk)
  let fail := fun (e : FileError) =>
    match e with
    | .refused r _ _ => refuse r
    | .nullCharacter => .error .nullCharacter
  match d.locate source, d.locate target with
  | .error e, _ => fail e
  | _, .error e => fail e
  | .ok old, .ok new =>
    match d.node? old with
    | none => refuse .notFound
    | some node =>
      if d.node? new = some .directory then refuse .isDirectory
      else .ok ((d.remove old).put new node)

/-- The names in a directory, in order of their characters. -/
def names (d : Disk) (p : FilePath) : List String :=
  let place := d.resolve p
  let inside := d.nodes.filterMap fun n =>
    if n.1 ≠ [] && n.1.dropLast = place then n.1.getLast? else none
  inside.mergeSort fun a b => !decide (b < a)

end Disk

end NovelScript
