/-!
# Quoted text in scripts

Text stands between quotes; a backslash and the character after it belong together, so a quote
behind a backslash does not close the text. `split?` finds the closing quote, `unescape` drops a
backslash before a quote or another backslash and keeps every other one, and `escape` is the way
back: a backslash is doubled only where it would be dropped.
-/

set_option autoImplicit false

namespace NovelScript.Quoted

/-- The characters that a backslash may stand before. -/
def isEscapable (c : Char) : Bool :=
  c == '\\' || c == '"' || c == '\''

/-- The text up to the closing quote `q`, and what follows that. A backslash escapes any character
but LF. -/
def split? (q : Char) : List Char → Option (List Char × List Char)
  | [] => none
  | '\\' :: c :: r =>
    if c = '\n' then none else (split? q r).map fun (body, rest) => ('\\' :: c :: body, rest)
  | c :: r =>
    if c = q then some ([], r)
    else if c = '\\' then none
    else (split? q r).map fun (body, rest) => (c :: body, rest)

/-- The text that is meant between quotes. -/
def unescape : List Char → List Char
  | [] => []
  | '\\' :: c :: r => if isEscapable c then c :: unescape r else '\\' :: unescape (c :: r)
  | c :: r => c :: unescape r
termination_by structural s => s

/-- Whether a backslash before `rest` would be taken for an escape: before a quote or a backslash,
and at the end, where the closing quote follows. -/
def isAmbiguousBefore : List Char → Bool
  | [] => true
  | ['\n'] => true
  | c :: _ => isEscapable c

/-- The text as it is written between double quotes. -/
def escape : List Char → List Char
  | [] => []
  | c :: r =>
    if c = '\\' then
      if isAmbiguousBefore r then '\\' :: '\\' :: escape r else '\\' :: escape r
    else if c = '"' then '\\' :: '"' :: escape r
    else c :: escape r

/-- A piece between quotes in which backslashes mean nothing: at least one character, the first of
which may be the quote itself, then all up to the next quote. It stays on one line. -/
def splitPlain? (q : Char) : List Char → Option (List Char × List Char)
  | [] => none
  | c :: r =>
    if c = '\n' then none
    else
      match r.dropWhile fun d => d != q && d != '\n' with
      | d :: rest =>
        if d = q then some (c :: r.takeWhile fun d => d != q && d != '\n', rest) else none
      | [] => none

/-! ## Samples -/

example : escape "a\\n\\'\"".toList = "a\\n\\\\'\\\"".toList := by decide

example : unescape "\\n\\\"\\\\".toList = "\\n\"\\".toList := by decide

example : split? '"' "a\\\"b\" c".toList = some ("a\\\"b".toList, " c".toList) := by decide

end NovelScript.Quoted
