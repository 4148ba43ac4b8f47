import NovelScript.Check.Issue
import NovelScript.Script.Walk

/-!
# Labels

Every label with a name has one definition, its first one; a further one is an error. Every jump
and call leads to a defined label; one without a target leads nowhere. A defined label other than
the entry is used by a jump or a call, and the entry label is defined.
-/

set_option autoImplicit false

namespace NovelScript.Check

/-- A name at an element of a walk. -/
structure Mention where
  line : Nat
  id : String
  name : String
  deriving DecidableEq, Repr

/-- The labels with a name. -/
def labelMentions (walk : List (Nat × Element)) : List Mention :=
  walk.filterMap fun
    | (line, .statement id (.label name)) => if name = "" then none else some ⟨line, id, name⟩
    | _ => none

/-- The jumps and calls. -/
def transferMentions (walk : List (Nat × Element)) : List (Transfer × Mention) :=
  walk.filterMap fun
    | (line, .statement id (.jump target)) => some (.jump, ⟨line, id, target⟩)
    | (line, .statement id (.call target)) => some (.call, ⟨line, id, target⟩)
    | _ => none

/-- The mentions of a name that is in `known` or was mentioned before. -/
def repeats (known : List String) : List Mention → List Mention
  | [] => []
  | m :: rest =>
    if known.contains m.name then m :: repeats known rest else repeats (m.name :: known) rest

/-- The first mention of each name that is not in `known`. -/
def firsts (known : List String) : List Mention → List Mention
  | [] => []
  | m :: rest =>
    if known.contains m.name then firsts known rest else m :: firsts (m.name :: known) rest

def labelIssues (walk : List (Nat × Element)) : List Issue :=
  let found := labelMentions walk
  let transfers := transferMentions walk
  let defined := found.map (·.name)
  let targets := transfers.map (·.2.name)
  (repeats [] found).map (fun m => .found m.line m.id (.duplicateLabel m.name)) ++
    (transfers.filter fun t => !defined.contains t.2.name).map
      (fun t => .found t.2.line t.2.id (.undefinedTarget t.1 t.2.name)) ++
    ((firsts [] found).filter fun m => m.name ≠ entryLabel && !targets.contains m.name).map
      (fun m => .found m.line m.id (.unusedLabel m.name)) ++
    if defined.contains entryLabel then [] else [⟨.missingEntry, none, none⟩]

end NovelScript.Check
