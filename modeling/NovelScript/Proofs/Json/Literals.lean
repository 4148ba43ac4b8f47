import NovelScript.Proofs.Json.Readable
import NovelScript.Text.Word

/-!
# Literals of values

`Denotes` says which texts are literals of a value in the expressions of scripts: null and the truth
values are names there, `None`, `True` and `False`, numbers stand in their shortest notation, and a
string has quotes of either kind. What no printer writes is left out: comments, prefixes of strings
and strings that go on over several lines, octal escapes and those by name.

The one-line notation of documents differs from it in the constants alone. So what `compact` writes
is a literal of the value where no constant is part of the value, and nowhere else
(`denotes_compact_iff`); a scalar in the notation of messages always is one (`denotes_literal`).
-/

set_option autoImplicit false

namespace NovelScript.Json

/-! ## Strings -/

/-- The character that follows a backslash in a short escape of a literal. -/
def literalEscape? : Char → Option Char
  | '\\' => some '\\'
  | '\'' => some '\''
  | '"' => some '"'
  | 'a' => some '\x07'
  | 'b' => some '\x08'
  | 'f' => some '\x0c'
  | 'n' => some '\n'
  | 'r' => some '\r'
  | 't' => some '\t'
  | 'v' => some '\x0b'
  | _ => none

/-- The character of a code, unless that is one half of a surrogate pair. -/
def codeChar? (n : Nat) : Option Char :=
  if n.isValidChar then some (Char.ofNat n) else none

/-- The first character between quotes `q`, and what follows it. -/
def literalChar? (q : Char) : List Char → Option (Char × List Char)
  | [] => none
  | '\\' :: 'x' :: a :: b :: r => ((hexUnit? '0' '0' a b).bind codeChar?).map (·, r)
  | '\\' :: 'u' :: a :: b :: c :: d :: r => ((hexUnit? a b c d).bind codeChar?).map (·, r)
  | '\\' :: e :: r => (literalEscape? e).map (·, r)
  | c :: r => if c ∈ [q, '\\', '\n', '\r', '\x00'] then none else some (c, r)

/-- What follows the characters `cs` and the closing quote. -/
def afterChars? (q : Char) : (cs s : List Char) → Option (List Char)
  | [], s => Text.after? [q] s
  | c :: cs, s =>
    match literalChar? q s with
    | some (d, r) => if d = c then afterChars? q cs r else none
    | none => none

/-- What follows a literal of the string `t`. -/
def afterString? (t : String) : List Char → Option (List Char)
  | [] => none
  | q :: r => if q = '\'' ∨ q = '"' then afterChars? q t.toList r else none

/-! ## Values -/

/-- What follows a name that ends there. -/
def afterName? (name s : List Char) : Option (List Char) :=
  (Text.after? name s).filter Text.atWordEnd

/-- What follows a key and its colon. -/
def afterKey? (k : String) (s : List Char) : Option (List Char) :=
  (afterString? k s).bind fun s => (Text.after? [':'] (skipSpace s)).map skipSpace

/-- What follows the rest of a container, of which one part was read: a comma and the other parts,
which `next` reads, or the bracket that closes it behind its last part. -/
def afterPart? (close : Char) (last : Bool) (next : List Char → Option (List Char))
    (s : List Char) : Option (List Char) :=
  match skipSpace s with
  | ',' :: s => next (skipSpace s)
  | s => if last then Text.after? [close] s else none

mutual

/-- What follows a literal of the value, if `s` starts with one. -/
def afterLiteral? : Json → List Char → Option (List Char)
  | null, s => afterName? "None".toList s
  | bool true, s => afterName? "True".toList s
  | bool false, s => afterName? "False".toList s
  | int n, s =>
    match readNumber s with
    | .ok (int k, r) => if k = n ∧ s = DecimalStyle.intText n ++ r then some r else none
    | _ => none
  | float x, s =>
    match readNumber s with
    | .ok (float y, r) => if y = x ∧ s = DecimalStyle.full.text x ++ r then some r else none
    | _ => none
  | str t, s => afterString? t s
  | arr items, s => (Text.after? ['['] s).bind fun r => afterItems? items (skipSpace r)
  | obj members, s => (Text.after? ['{'] s).bind fun r => afterMembers? members (skipSpace r)

/-- What follows literals of the items and the closing bracket; a comma may stand before that. -/
def afterItems? : List Json → List Char → Option (List Char)
  | [], s => Text.after? [']'] s
  | v :: rest, s =>
    (afterLiteral? v s).bind (afterPart? ']' rest.isEmpty (afterItems? rest))

/-- What follows literals of the members and the closing brace; a comma may stand before that. -/
def afterMembers? : List (String × Json) → List Char → Option (List Char)
  | [], s => Text.after? ['}'] s
  | (k, v) :: rest, s =>
    (afterKey? k s).bind fun s =>
      (afterLiteral? v s).bind (afterPart? '}' rest.isEmpty (afterMembers? rest))

end

/-- Whether a text is a literal of the value. An object denotes itself only if no key is repeated,
as the last value of a key is the one that counts. -/
def Denotes (text : String) (v : Json) : Prop :=
  v.DistinctKeys ∧ afterLiteral? v text.toList = some []

/-! ## Parts -/

mutual

/-- The value and all that occurs in it, at any depth. -/
def parts : Json → List Json
  | arr items => arr items :: itemsParts items
  | obj members => obj members :: membersParts members
  | v => [v]

/-- The parts of all the items. -/
def itemsParts : List Json → List Json
  | [] => []
  | v :: rest => parts v ++ itemsParts rest

/-- The parts of all the values. -/
def membersParts : List (String × Json) → List Json
  | [] => []
  | (_, v) :: rest => parts v ++ membersParts rest

end

/-- Null and the truth values. -/
def isConstant : Json → Bool
  | null => true
  | bool _ => true
  | _ => false

/-- Whether the value holds neither an infinity nor a NaN. -/
def Finite (v : Json) : Prop :=
  ∀ x, float x ∈ v.parts → ∃ negative m, x = .finite negative m

theorem mem_itemsParts {w : Json} : ∀ {items : List Json},
    w ∈ itemsParts items ↔ ∃ v ∈ items, w ∈ v.parts
  | [] => by simp [itemsParts]
  | v :: rest => by simp [itemsParts, mem_itemsParts]

theorem mem_membersParts {w : Json} : ∀ {members : List (String × Json)},
    w ∈ membersParts members ↔ ∃ m ∈ members, w ∈ m.2.parts
  | [] => by simp [membersParts]
  | (k, v) :: rest => by
    rw [membersParts, List.mem_append, mem_membersParts, List.exists_mem_cons_iff]

theorem finite_arr {items : List Json} : (arr items).Finite ↔ ∀ v ∈ items, v.Finite := by
  simp only [Finite, parts, List.mem_cons, reduceCtorEq, false_or, mem_itemsParts]
  constructor
  · exact fun h v hv x hx => h x ⟨v, hv, hx⟩
  · rintro h x ⟨v, hv, hx⟩
    exact h v hv x hx

theorem finite_obj {members : List (String × Json)} :
    (obj members).Finite ↔ ∀ m ∈ members, m.2.Finite := by
  simp only [Finite, parts, List.mem_cons, reduceCtorEq, false_or, mem_membersParts]
  constructor
  · exact fun h m hm x hx => h x ⟨m, hm, hx⟩
  · rintro h x ⟨m, hm, hx⟩
    exact h m hm x hx

/-! ## Strings as documents write them -/

theorem after?_singleton (c : Char) (r : List Char) : Text.after? [c] (c :: r) = some r := by
  simp [Text.after?]

/-- A short escape stands for its character, whatever the quotes. -/
theorem literalChar?_short {q e c : Char} (h : literalEscape? e = some c) (r : List Char) :
    literalChar? q ('\\' :: e :: r) = some (c, r) := by
  unfold literalEscape? at h
  split at h <;> cases h <;> simp [literalChar?, literalEscape?]

theorem literalChar?_unit {q a b c d : Char} {u : Nat} (hu : hexUnit? a b c d = some u)
    (hlow : u < 0x20) (r : List Char) :
    literalChar? q ('\\' :: 'u' :: a :: b :: c :: d :: r) = some (Char.ofNat u, r) := by
  have hvalid : u.isValidChar := .inl (by omega)
  simp [literalChar?, hu, codeChar?, hvalid]

/-- **A character is a literal as documents write it**, between double quotes. -/
theorem literalChar?_escapedChar (c : Char) (r : List Char) :
    literalChar? '"' (escapedChar c ++ r) = some (c, r) := by
  unfold escapedChar
  split
  · rename_i h
    rcases (by simpa using h : c = '"' ∨ c = '\\') with rfl | rfl <;>
      exact literalChar?_short rfl r
  rename_i hplain
  repeat
    split
    · subst c
      exact literalChar?_short rfl r
  split
  · rename_i hlow
    have := literalChar?_unit (q := '"') (hexUnit?_hexDigits c.toNat hlow) hlow r
    rwa [Char.ofNat_toNat] at this
  · rename_i hn hr _ _ _ hlow
    obtain ⟨hquote, hslash⟩ : c ≠ '"' ∧ c ≠ '\\' := by simpa using hplain
    have hnull : c ≠ '\x00' := by
      rintro rfl
      exact hlow (by decide)
    rw [List.singleton_append, literalChar?]
    · simp [hquote, hslash, hn, hr, hnull]
    all_goals
      intros
      exact hslash (by assumption)

theorem afterChars?_escaped (cs r : List Char) :
    afterChars? '"' cs (cs.flatMap escapedChar ++ '"' :: r) = some r := by
  induction cs with
  | nil => exact after?_singleton '"' r
  | cons c cs ih =>
    rw [List.flatMap_cons, List.append_assoc, afterChars?, literalChar?_escapedChar]
    exact (if_pos rfl).trans ih

theorem afterString?_stringText (t : String) (r : List Char) :
    afterString? t (stringText t ++ r) = some r := by
  have htext : stringText t ++ r = '"' :: (t.toList.flatMap escapedChar ++ '"' :: r) := by
    simp [stringText]
  rw [htext, afterString?, if_pos (.inr rfl), afterChars?_escaped]

/-- A key is followed by the value. -/
theorem afterKey?_text (k : String) {s : List Char} (hs : StartsValue s) :
    afterKey? k (stringText k ++ ([':', ' '] ++ s)) = some s := by
  have hcolon : skipSpace ([':', ' '] ++ s) = ':' :: ([' '] ++ s) := skipSpace_cons rfl _
  have hspace : skipSpace ([' '] ++ s) = s := hs.skipSpace (by simp [isSpace])
  rw [afterKey?, afterString?_stringText, Option.bind_some, hcolon, after?_singleton,
    Option.map_some, hspace]

/-! ## Scalars -/

/-- How the special values are spelt does not show in a finite number. -/
theorem text_finite (style : DecimalStyle) (infinity nan : List Char) (negative : Bool)
    (m : Magnitude) :
    { style with infinity := infinity, nan := nan : DecimalStyle }.text (.finite negative m) =
      style.text (.finite negative m) :=
  rfl

theorem afterLiteral?_int {n : Int} (hn : digitCount n ≤ maxDigits) {r : List Char}
    (hr : EndsNumber r) : afterLiteral? (int n) (DecimalStyle.intText n ++ r) = some r := by
  have hread := (isNumber_intText hn).readNumber_append hr
  simp only [afterLiteral?, hread, and_self, if_true]

theorem afterLiteral?_float (negative : Bool) (m : Magnitude) {r : List Char}
    (hr : EndsNumber r) :
    afterLiteral? (float (.finite negative m))
      (DecimalStyle.full.text (.finite negative m) ++ r) = some r := by
  have hread := (isNumber_text negative m).readNumber_append hr
  rw [DecimalStyle.json, text_finite] at hread
  simp only [afterLiteral?, hread, and_self, if_true]

/-- **A scalar in the notation of messages** is a literal of itself, unless it is a string. -/
theorem denotes_literal {v : Json} {t : String} (hv : v.kind ∉ [.str, .arr, .obj])
    (hr : v.Readable) (hf : v.Finite) (ht : v.literal = some t) : Denotes t v := by
  rw [literal, if_pos hr.2, Option.some.injEq] at ht
  subst ht
  refine ⟨hr.1, ?_⟩
  rw [String.toList_ofList]
  have hend : EndsNumber [] := by simp [EndsNumber]
  cases v with
  | null => decide
  | bool b => cases b <;> decide
  | int n => simpa [literalText] using afterLiteral?_int hr.2 hend
  | float x =>
    obtain ⟨negative, m, rfl⟩ := hf x (by simp [parts])
    simpa [literalText] using afterLiteral?_float negative m hend
  | str _ | arr _ | obj _ => simp [kind] at hv

/-! ## Values as documents write them on one line -/

/-- The parts of a container hold a constant if its items do. -/
theorem any_isConstant_arr (items : List Json) :
    (arr items).parts.any isConstant = (itemsParts items).any isConstant := by
  simp [parts, isConstant]

theorem any_isConstant_obj (members : List (String × Json)) :
    (obj members).parts.any isConstant = (membersParts members).any isConstant := by
  simp [parts, isConstant]

/-- The words of documents are no names of constants. -/
theorem afterLiteral?_constant {v : Json} (hv : v.isConstant = true) (depth : Nat)
    (r : List Char) : afterLiteral? v (text .compact depth v ++ r) = none := by
  cases v with
  | null => rfl
  | bool b => cases b <;> rfl
  | _ => cases hv

theorem afterPart?_close {close : Char} (hc : isSpace close = false) (hcomma : close ≠ ',')
    (next : List Char → Option (List Char)) (r : List Char) :
    afterPart? close true next (close :: r) = some r := by
  rw [afterPart?, skipSpace_cons hc]
  split
  · rename_i heq
    cases heq
    exact absurd rfl hcomma
  · exact (if_pos rfl).trans (after?_singleton close r)

theorem afterPart?_comma (close : Char) (last : Bool) (next : List Char → Option (List Char))
    {s : List Char} (hs : StartsValue s) :
    afterPart? close last next (',' :: ' ' :: s) = next s := by
  have hspace : skipSpace (' ' :: s) = s := hs.skipSpace (b := [' ']) (by simp [isSpace])
  rw [afterPart?, skipSpace_cons rfl]
  exact congrArg next hspace

/-- Once a constant was met, nothing more is read. -/
theorem bind_constant (c : Bool) (s : List Char) (next : List Char → Option (List Char)) :
    (if c then none else some s).bind next = if c then none else next s := by
  cases c <;> rfl

/-- No blank stands in front of a value. -/
theorem StartsValue.skipSpace_eq {s : List Char} (hs : StartsValue s) : Json.skipSpace s = s :=
  hs.skipSpace (b := []) (by simp)

theorem text_compact_arr (depth : Nat) (v : Json) (rest : List Json) (r : List Char) :
    text .compact depth (arr (v :: rest)) ++ r =
      '[' :: (text .compact (depth + 1) v ++
        (itemsText .compact (depth + 1) rest ++ ']' :: r)) := by
  simp [text, Layout.compact]

theorem text_compact_obj (depth : Nat) (k : String) (v : Json) (rest : List (String × Json))
    (r : List Char) :
    text .compact depth (obj ((k, v) :: rest)) ++ r =
      '{' :: (stringText k ++ ([':', ' '] ++ (text .compact (depth + 1) v ++
        (membersText .compact (depth + 1) rest ++ '}' :: r)))) := by
  simp [text, Layout.compact]

theorem itemsText_compact_cons (depth : Nat) (v : Json) (rest : List Json) (r : List Char) :
    itemsText .compact depth (v :: rest) ++ r =
      ',' :: ' ' :: (text .compact depth v ++ (itemsText .compact depth rest ++ r)) := by
  simp [itemsText, Layout.compact]

theorem membersText_compact_cons (depth : Nat) (k : String) (v : Json)
    (rest : List (String × Json)) (r : List Char) :
    membersText .compact depth ((k, v) :: rest) ++ r =
      ',' :: ' ' :: (stringText k ++ ([':', ' '] ++ (text .compact depth v ++
        (membersText .compact depth rest ++ r)))) := by
  simp [membersText, Layout.compact]

mutual

/-- **The text of a value on one line** is a literal of it up to the first constant. -/
theorem afterLiteral?_text : ∀ (v : Json), v.ShortIntegers → v.Finite →
    ∀ (depth : Nat) {r : List Char}, EndsValue r →
      afterLiteral? v (text .compact depth v ++ r) =
        if v.parts.any isConstant then none else some r
  | .null, _, _, depth, r, _ => afterLiteral?_constant rfl depth r
  | .bool _, _, _, depth, r, _ => afterLiteral?_constant rfl depth r
  | .int n, hn, _, _, r, hr => afterLiteral?_int hn hr.endsNumber
  | .float x, _, hf, _, r, hr => by
    obtain ⟨negative, m, rfl⟩ := hf x (by simp [parts])
    rw [text, DecimalStyle.json, text_finite]
    exact afterLiteral?_float negative m hr.endsNumber
  | .str t, _, _, _, r, _ => afterString?_stringText t r
  | .arr [], _, _, _, r, _ => rfl
  | .arr (v :: rest), hn, hf, depth, r, _ => by
    obtain ⟨hv, hrest⟩ := List.forall_mem_cons.1 (finite_arr.1 hf)
    have hend : EndsValue (itemsText .compact (depth + 1) rest ++ ']' :: r) :=
      endsValue_itemsText Layout.blank_compact (depth + 1) rest (endsValue_cons (by decide) r)
    have hstart := (startsValue_text .compact hn.1 (depth + 1)).append
      (itemsText .compact (depth + 1) rest ++ ']' :: r)
    rw [text_compact_arr, afterLiteral?, after?_singleton, Option.bind_some,
      hstart.skipSpace_eq, any_isConstant_arr, itemsParts, List.any_append]
    exact afterItems?_text rest hn.2 hrest (depth + 1)
      (afterLiteral?_text v hn.1 hv (depth + 1) hend)
  | .obj [], _, _, _, r, _ => rfl
  | .obj ((k, v) :: rest), hn, hf, depth, r, _ => by
    obtain ⟨hv, hrest⟩ := List.forall_mem_cons.1 (finite_obj.1 hf)
    have hend : EndsValue (membersText .compact (depth + 1) rest ++ '}' :: r) :=
      endsValue_membersText Layout.blank_compact (depth + 1) rest (endsValue_cons (by decide) r)
    have hkey := afterKey?_text k ((startsValue_text .compact hn.1 (depth + 1)).append
      (membersText .compact (depth + 1) rest ++ '}' :: r))
    rw [text_compact_obj, afterLiteral?, after?_singleton, Option.bind_some,
      ((startsValue_stringText k).append _).skipSpace_eq, any_isConstant_obj, membersParts,
      List.any_append]
    exact afterMembers?_text rest hn.2 hrest (depth + 1) hkey
      (afterLiteral?_text v hn.1 hv (depth + 1) hend)

/-- The items behind one that was read, up to the first constant. -/
theorem afterItems?_text : ∀ (rest : List Json), ShortIntegersItems rest →
    (∀ v ∈ rest, v.Finite) → ∀ (depth : Nat) {s r : List Char} {v : Json} {c : Bool},
      afterLiteral? v s =
        (if c then none else some (itemsText .compact depth rest ++ ']' :: r)) →
      afterItems? (v :: rest) s =
        if c || (itemsParts rest).any isConstant then none else some r
  | [], _, _, depth, s, r, v, c, hv => by
    rw [afterItems?, hv, bind_constant, itemsText, List.nil_append, List.isEmpty_nil,
      afterPart?_close rfl (by decide), itemsParts, List.any_nil, Bool.or_false]
  | v' :: rest, hn, hf, depth, s, r, v, c, hv => by
    obtain ⟨hv', hrest⟩ := List.forall_mem_cons.1 hf
    have hend : EndsValue (itemsText .compact depth rest ++ ']' :: r) :=
      endsValue_itemsText Layout.blank_compact depth rest (endsValue_cons (by decide) r)
    have hstart := (startsValue_text .compact hn.1 depth).append
      (itemsText .compact depth rest ++ ']' :: r)
    have hnext := afterItems?_text rest hn.2 hrest depth
      (afterLiteral?_text v' hn.1 hv' depth hend)
    rw [afterItems?, hv, bind_constant, itemsText_compact_cons, afterPart?_comma _ _ _ hstart,
      hnext, itemsParts, List.any_append]
    cases c <;> rfl

/-- The members behind one that was read, up to the first constant. -/
theorem afterMembers?_text : ∀ (rest : List (String × Json)), ShortIntegersMembers rest →
    (∀ m ∈ rest, m.2.Finite) →
    ∀ (depth : Nat) {s t r : List Char} {k : String} {v : Json} {c : Bool},
      afterKey? k s = some t →
      afterLiteral? v t =
        (if c then none else some (membersText .compact depth rest ++ '}' :: r)) →
      afterMembers? ((k, v) :: rest) s =
        if c || (membersParts rest).any isConstant then none else some r
  | [], _, _, depth, s, t, r, k, v, c, hk, hv => by
    rw [afterMembers?, hk, Option.bind_some, hv, bind_constant, membersText, List.nil_append,
      List.isEmpty_nil, afterPart?_close rfl (by decide), membersParts, List.any_nil,
      Bool.or_false]
  | (k', v') :: rest, hn, hf, depth, s, t, r, k, v, c, hk, hv => by
    obtain ⟨hv', hrest⟩ := List.forall_mem_cons.1 hf
    have hend : EndsValue (membersText .compact depth rest ++ '}' :: r) :=
      endsValue_membersText Layout.blank_compact depth rest (endsValue_cons (by decide) r)
    have hkey := afterKey?_text k' ((startsValue_text .compact hn.1 depth).append
      (membersText .compact depth rest ++ '}' :: r))
    have hnext := afterMembers?_text rest hn.2 hrest depth hkey
      (afterLiteral?_text v' hn.1 hv' depth hend)
    rw [afterMembers?, hk, Option.bind_some, hv, bind_constant, membersText_compact_cons,
      afterPart?_comma _ _ _ ((startsValue_stringText k').append _), hnext, membersParts,
      List.any_append]
    cases c <;> rfl

end

/-- **What `compact` writes** is a literal of the value where no part of it is a constant. -/
theorem denotes_compact_iff {v : Json} {t : String} (hr : v.Readable) (hf : v.Finite)
    (ht : v.compact = some t) : Denotes t v ↔ ∀ w ∈ v.parts, w.isConstant = false := by
  rw [compact, if_pos hr.2, Option.some.injEq] at ht
  subst ht
  have htext := afterLiteral?_text v hr.2 hf 0 (r := []) (by simp [EndsValue])
  rw [List.append_nil] at htext
  have hall : (∀ w ∈ v.parts, w.isConstant = false) ↔ v.parts.any isConstant = false := by simp
  rw [Denotes, String.toList_ofList, htext, hall]
  cases v.parts.any isConstant <;> simp [hr.1]

end NovelScript.Json
