import NovelScript.Text.Blank

/-!
# File paths

A path is a list of names, from the root or from the working directory on. `ofText` passes over
empty names and single dots; `text` is the short form without them, in which only a pair of slashes
at the start is kept. The suffix of a path is the part of its last name from the last dot on, if
there is something on both sides of that dot.
-/

set_option autoImplicit false

namespace NovelScript

/-- Where a path starts: at the working directory, or at the root, which is written as one slash or
as two. -/
inductive PathStart where
  | home | root | doubleRoot
  deriving DecidableEq, Repr

namespace PathStart

/-- The start of a path as it is written; three slashes and more are as good as one. -/
def ofText : List Char → PathStart
  | '/' :: '/' :: '/' :: _ => root
  | '/' :: '/' :: _ => doubleRoot
  | '/' :: _ => root
  | _ => home

def text : PathStart → String
  | home => ""
  | root => "/"
  | doubleRoot => "//"

end PathStart

structure FilePath where
  start : PathStart
  names : List String
  deriving DecidableEq, Repr

namespace FilePath

/-- The path from the root along these names. -/
def fromRoot (names : List String) : FilePath :=
  ⟨.root, names⟩

/-- The names between the slashes of a text, empty ones included. -/
def pieces (text : String) : List String :=
  (Text.cutAt (· == '/') text.toList).map String.ofList

def ofText (text : String) : FilePath :=
  ⟨.ofText text.toList, (pieces text).filter fun name => name ≠ "" && name ≠ "."⟩

/-- The path as it is written; the working directory is a dot. -/
def text (p : FilePath) : String :=
  if p.start = .home ∧ p.names = [] then "."
  else p.start.text ++ String.intercalate "/" p.names

/-- The path of the same place without a double dot among its names: a name before one is dropped
with it. `home` is the working directory. -/
def normal (home : List String) (p : FilePath) : FilePath :=
  match p.start with
  | .home => fromRoot (follow home p.names)
  | start => ⟨start, follow [] p.names⟩
where
  /-- The names that lead from a place to another. -/
  follow (place : List String) : List String → List String
    | [] => place
    | name :: rest =>
      if name = ".." then follow place.dropLast rest else follow (place ++ [name]) rest

/-- The path of a name below this one. -/
def child (p : FilePath) (name : String) : FilePath :=
  { p with names := p.names ++ [name] }

/-- The last name; the root and the working directory have none. -/
def lastName (p : FilePath) : String :=
  p.names.getLast?.getD ""

/-- The suffix of a name, with its dot. -/
def suffixOf (name : List Char) : List Char :=
  let after := name.reverse.takeWhile (· != '.')
  let before := name.reverse.dropWhile (· != '.')
  if after = [] || before.length ≤ 1 then [] else '.' :: after.reverse

def suffix (p : FilePath) : String :=
  String.ofList (suffixOf p.lastName.toList)

/-! ## Samples -/

example : (ofText "./a//b.JSON/").text = "a/b.JSON" := by decide

example : ["//a", "///a//b", "//", ""].map (fun path => (ofText path).text) =
    ["//a", "/a/b", "//", "."] := by decide

example : ["x.tar.json", ".json", "a.", "..json"].map (fun name => (ofText name).suffix) =
    [".json", "", "", ".json"] := by decide

end FilePath

end NovelScript
