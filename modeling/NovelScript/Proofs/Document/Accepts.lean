import NovelScript.Proofs.Document.Schema
import NovelScript.Proofs.Json.LongIntegers

/-!
# Which values are read as documents

Each part of the reader decides its part of the format (`Decides`): where it gives a result, the
value is as the format wants it; where it names a fault, it is not; and otherwise a duration is out
of range or an integer too long to be written. So just the values that conform are read, and the
others are refused with a fault, as long as the numbers are small enough (`ofJson_iff_conforms`).
-/

set_option autoImplicit false

namespace NovelScript.Document

/-! ## Deciding -/

/-- What an outcome says of the format `P` and of the texts `W`, where durations that are out of
range break `Q`. -/
def Decides {α : Type} (P W Q : Prop) : Decoded α → Prop
  | .ok _ => P ∧ W
  | .error (.invalid _ _) => ¬P
  | .error .outOfRange => ¬Q
  | .error .unwritable => ¬W

section
variable {α β : Type} {P P' W W' Q Q' : Prop} {x : Decoded α} {f : α → Decoded β}

theorem Decides.mono (h : Decides P W Q x) (hP : P ↔ P') (hW : W ↔ W') (hQ : Q' → Q) :
    Decides P' W' Q' x := by
  match x, h with
  | .ok _, h => exact ⟨hP.1 h.1, hW.1 h.2⟩
  | .error (.invalid _ _), h => exact fun hp => h (hP.2 hp)
  | .error .outOfRange, h => exact fun hq => h (hQ hq)
  | .error .unwritable, h => exact fun hw => h (hW.2 hw)

/-- A first step decides what is necessary, and the steps after it decide the rest. -/
theorem Decides.bind (h : Decides P W Q x) (hP : P' → P) (hW : W' → W)
    (hf : ∀ a, x = .ok a → P → W → Decides P' W' Q (f a)) : Decides P' W' Q (x >>= f) := by
  match x, h with
  | .ok a, h => exact hf a rfl h.1 h.2
  | .error (.invalid _ _), h => exact fun hp => h (hP hp)
  | .error .outOfRange, h => exact h
  | .error .unwritable, h => exact fun hw => h (hW hw)

/-- A first step that writes no text. -/
theorem Decides.andThen (h : Decides P True Q x) (hP : P' → P)
    (hf : ∀ a, x = .ok a → P → Decides P' W Q (f a)) : Decides P' W Q (x >>= f) :=
  h.bind hP (fun _ => trivial) fun a ha hp _ => hf a ha hp

/-- Where the numbers are small enough, what is as it should be is read. -/
theorem Decides.exists_ok (h : Decides P W Q x) (hP : P) (hW : W) (hQ : Q) : ∃ a, x = .ok a := by
  match x, h with
  | .ok a, _ => exact ⟨a, rfl⟩
  | .error (.invalid _ _), h => exact absurd hP h
  | .error .outOfRange, h => exact absurd hQ h
  | .error .unwritable, h => exact absurd hW h

theorem Decides.bind_cons {F : String → Prop} {key : String} {keys : List String}
    (h : Decides (F key) True Q x) (hf : ∀ a, Decides (∀ k ∈ keys, F k) W Q (f a)) :
    Decides (∀ k ∈ key :: keys, F k) W Q (x >>= f) :=
  h.andThen (fun hall => hall key (.head _)) fun a _ hkey =>
    (hf a).mono (by simp [hkey]) Iff.rfl id

theorem decides_nil {F : String → Prop} (a : α) (hW : W) :
    Decides (∀ k ∈ [], F k) W Q (.ok a) := by
  simpa [Decides] using hW

theorem Decides.bind_pure (h : Decides P W Q x) (g : α → β) :
    Decides P W Q (x >>= fun a => pure (g a)) :=
  h.bind id id fun _ _ hP hW => ⟨hP, hW⟩

end

/-! ## Members -/

variable {Q : Prop} (path : Path) (members : Members) (key : String)

theorem asString_decides (v : Json) : Decides (IsString v) True Q (asString path v) := by
  cases v with
  | str s => exact ⟨⟨s, rfl⟩, trivial⟩
  | _ => exact fun ⟨s, h⟩ => nomatch h

theorem asList_decides (v : Json) : Decides (ListOf (fun _ => True) v) True Q (asList path v) := by
  cases v with
  | arr items => exact ⟨.list fun _ _ => trivial, trivial⟩
  | _ => exact fun h => nomatch h

theorem required_decides :
    Decides (∃ v, Json.find? key members = some v) True Q (required path members key) := by
  unfold required
  split
  · rename_i v h
    exact ⟨⟨v, h⟩, trivial⟩
  · rename_i h
    rintro ⟨v, hv⟩
    rw [h] at hv
    cases hv

theorem required_eq_ok {v : Json} (h : required path members key = .ok v) :
    Json.find? key members = some v := by
  unfold required at h
  split at h
  · cases h
    assumption
  · cases h

theorem string?_decides :
    Decides (Field (OrNull IsString) members key) True Q (string? path members key) := by
  unfold string?
  split
  · exact ⟨field_of_none (by assumption), trivial⟩
  · exact ⟨(field_iff_of_some (by assumption)).2 .null, trivial⟩
  · rename_i v hne h
    refine Decides.mono ((asString_decides (path.key key) v).bind_pure some) ?_ Iff.rfl id
    rw [field_iff_of_some h]
    refine ⟨.value, fun hv => ?_⟩
    cases hv with
    | null => exact (hne rfl).elim
    | value hv => exact hv

theorem stringOr_decides (default : String) :
    Decides (Field (OrNull IsString) members key) True Q (stringOr default path members key) :=
  (string?_decides path members key).bind_pure _

theorem listOrEmpty_decides :
    Decides (Field (ListOf fun _ => True) members key) True Q (listOrEmpty path members key) := by
  unfold listOrEmpty
  split
  · exact ⟨field_of_none (by assumption), trivial⟩
  · rename_i v h
    exact (asList_decides path v).mono (field_iff_of_some h).symm Iff.rfl id

theorem stringOrEmpty_decides :
    Decides (Field IsString members key) True Q (stringOrEmpty path members key) := by
  unfold stringOrEmpty
  split
  · exact ⟨field_of_none (by assumption), trivial⟩
  · rename_i v h
    exact (asString_decides _ v).mono (field_iff_of_some h).symm Iff.rfl id

theorem listOrEmpty_eq_ok {items : List Json} (h : listOrEmpty path members key = .ok items) :
    (Json.find? key members = none ∧ items = []) ∨ Json.find? key members = some (.arr items) := by
  unfold listOrEmpty at h
  split at h
  · cases h
    exact .inl ⟨by assumption, rfl⟩
  · rename_i v hv
    cases v with
    | arr items' =>
      cases h
      exact .inr hv
    | _ => cases h

/-- The list that is read under a key is as wanted if its entries are. -/
theorem field_listOf_iff {P : Json → Prop} {items : List Json}
    (h : listOrEmpty path members key = .ok items) :
    Field (ListOf P) members key ↔ ∀ v ∈ items, P v := by
  obtain ⟨hnone, rfl⟩ | hsome := listOrEmpty_eq_ok path members key h
  · simpa using field_of_none hnone
  · rw [field_iff_of_some hsome]
    exact ⟨ListOf.forall, .list⟩

theorem asSeconds?_decides (v : Json) :
    Decides (OrNull IsNumber v) True (∀ n, v = .int n → Binary64.InRange n)
      (asSeconds? path v) := by
  cases v with
  | null => exact ⟨.null, trivial⟩
  | float x => exact ⟨.value (.inr ⟨x, rfl⟩), trivial⟩
  | int n =>
    have hrange := Binary64.ofInt?_isSome_iff n
    rw [asSeconds?]
    cases hn : Binary64.ofInt? n with
    | some x => exact ⟨.value (.inl ⟨n, rfl⟩), trivial⟩
    | none =>
      rw [hn] at hrange
      exact fun hfits => nomatch hrange.2 (hfits n rfl)
  | _ =>
    rintro (_ | h)
    simp [IsNumber] at h

theorem seconds?_decides :
    Decides (Field (OrNull IsNumber) members key) True
      (∀ n, Json.find? key members = some (.int n) → Binary64.InRange n)
      (seconds? path members key) := by
  unfold seconds?
  cases h : Json.find? key members with
  | none => exact ⟨field_of_none h, trivial⟩
  | some v =>
    refine (asSeconds?_decides (path.key key) v).mono (field_iff_of_some h).symm Iff.rfl ?_
    exact fun hfits n hv => hfits n (congrArg some hv)

/-! ## Texts -/

theorem literal_eq_none_iff (v : Json) : v.literal = none ↔ ¬v.ShortIntegers := by
  simp [Json.literal]

theorem expressionText_eq_none_iff (v : Json) : expressionText v = none ↔ ¬v.ShortIntegers := by
  cases v with
  | str s => exact iff_of_false nofun (not_not_intro trivial)
  | arr _ | obj _ => simp [expressionText, Json.compact]
  | null | bool _ | int _ | float _ => exact literal_eq_none_iff _

theorem expression_decides :
    Decides True (Field Json.ShortIntegers members key) Q (expression members key) := by
  unfold expression
  split
  · exact ⟨trivial, field_of_none (by assumption)⟩
  · exact ⟨trivial, (field_iff_of_some (v := .null) (by assumption)).2 trivial⟩
  · rename_i v _ h
    have hnone := expressionText_eq_none_iff v
    cases htext : expressionText v with
    | some text =>
      rw [htext] at hnone
      exact ⟨trivial, (field_iff_of_some h).2 (not_not.1 fun hlong => nomatch hnone.2 hlong)⟩
    | none => exact fun hfield => hnone.1 htext ((field_iff_of_some h).1 hfield)

theorem unknownType_decides {α : Type} {P : Prop} (hP : ¬P) (found : Json) :
    Decides P found.ShortIntegers Q (unknownType path found : Decoded α) := by
  have hnone := literal_eq_none_iff found
  unfold unknownType
  cases htext : found.literal with
  | some shown => exact hP
  | none => exact hnone.1 htext

/-- The kind of an object is the one that its type names. -/
theorem decodeKind_of_find? {kind : ElementKind}
    (h : Json.find? "type" members = some (.str kind.name)) :
    decodeKind path members = .ok kind := by
  simp [decodeKind, h, ElementKind.ofName?_name]

/-- A type that names no kind is reported as it stands there, or as null where there is none. -/
theorem decodeKind_of_not
    (h : ¬∃ kind : ElementKind, Json.find? "type" members = some (.str kind.name)) :
    decodeKind path members =
      unknownType (path.key "type") ((Json.find? "type" members).getD .null) := by
  unfold decodeKind
  cases hfind : Json.find? "type" members with
  | none => rfl
  | some v =>
    cases v with
    | str name =>
      cases hkind : ElementKind.ofName? name with
      | none => simp only [Option.getD_some, hkind, Option.elim_none]
      | some kind => exact absurd ⟨kind, by rw [hfind, ElementKind.ofName?_eq_some hkind]⟩ h
    | _ => rfl

theorem decodeKind_decides : Decides
    (∃ kind : ElementKind, Json.find? "type" members = some (.str kind.name))
    (Field Json.ShortIntegers members "type") Q (decodeKind path members) := by
  by_cases h : ∃ kind : ElementKind, Json.find? "type" members = some (.str kind.name)
  · obtain ⟨kind, hkind⟩ := h
    rw [decodeKind_of_find? path members hkind]
    exact ⟨⟨kind, hkind⟩, (field_iff_of_some hkind).2 trivial⟩
  · rw [decodeKind_of_not path members h]
    refine (unknownType_decides _ h _).mono Iff.rfl ?_ id
    cases hfind : Json.find? "type" members with
    | none => exact iff_of_true trivial (field_of_none hfind)
    | some v => exact (field_iff_of_some hfind).symm

theorem decodeKind_eq_ok {kind : ElementKind} (h : decodeKind path members = .ok kind) :
    Json.find? "type" members = some (.str kind.name) := by
  have hdecides := decodeKind_decides (Q := True) path members
  rw [h] at hdecides
  obtain ⟨kind', hkind⟩ := hdecides.1
  rw [decodeKind_of_find? path members hkind] at h
  cases h
  exact hkind

/-- The type of an object names no other kind than its own. -/
theorem kind_eq_of_find? {members : Members} {kind : ElementKind} (kind' : ElementKind)
    (type : Json.find? "type" members = some (.str kind.name))
    (h : Json.find? "type" members = some (.str kind'.name)) : kind' = kind := by
  rw [type, Option.some.injEq, Json.str.injEq] at h
  exact ElementKind.name_injective h.symm

/-! ## Elements -/

/-- The fields of a statement as the format wants them. -/
def FieldsConform (kind : StatementKind) (members : Members) : Prop :=
  ∀ key ∈ kind.fields, Field (OrNull (Admits kind key)) members key

theorem decodeStatement_decides (kind : StatementKind) (hQ : kind = .pause → Q →
      ∀ n, Json.find? "duration" members = some (.int n) → Binary64.InRange n) :
    Decides (FieldsConform kind members)
      (kind = .assign → Field Json.ShortIntegers members "value") Q
      (decodeStatement path members kind) := by
  have hstring := string?_decides (Q := Q) path members
  have hstringOr := stringOr_decides (Q := Q) path members
  cases kind with
  | dialogue =>
    exact (hstringOr "content" _).bind_cons fun _ =>
      (hstring "character").bind_cons fun _ => decides_nil _ nofun
  | scene | hideImage =>
    exact (hstringOr "image" _).bind_cons fun _ =>
      (hstring "transition").bind_cons fun _ => decides_nil _ nofun
  | showImage =>
    exact (hstringOr "image" _).bind_cons fun _ => (hstringOr "position" _).bind_cons fun _ =>
      (hstring "transition").bind_cons fun _ => decides_nil _ nofun
  | label | jump | call => exact (hstringOr "label" _).bind_cons fun _ => decides_nil _ nofun
  | play =>
    exact (hstringOr "channel" _).bind_cons fun _ =>
      (hstringOr "audio" _).bind_cons fun _ => decides_nil _ nofun
  | stop => exact (hstringOr "channel" _).bind_cons fun _ => decides_nil _ nofun
  | pause =>
    have hseconds := (seconds?_decides path members "duration").mono Iff.rfl Iff.rfl (hQ rfl)
    exact hseconds.bind_cons (F := fun key =>
      Field (OrNull (Admits .pause key)) members key) fun _ => decides_nil _ nofun
  | assign =>
    -- the value may be anything that can be written
    have hvalue : ∀ key ∈ ["value"], Field (OrNull (Admits .assign key)) members key := by
      intro key hkey v _
      obtain rfl := List.mem_singleton.1 hkey
      exact .value trivial
    refine (hstringOr "variable" _).bind_cons (F := fun key =>
      Field (OrNull (Admits .assign key)) members key) fun name => ?_
    exact ((expression_decides members "value").bind_pure (Statement.assign name)).mono
      (iff_of_true trivial hvalue) (by simp) id
  | condition => exact (hstringOr "condition" _).bind_cons fun _ => decides_nil _ nofun
  | code => exact (hstringOr "code" _).bind_cons fun _ => decides_nil _ nofun
  | goBack => exact decides_nil _ nofun

section
variable (P : Members → Prop)

/-- What `AllWithin` wants of the actions of a choice. -/
def InActions (v : Json) : Prop := ∀ actions, v = .arr actions → ∀ e ∈ actions, AllWithin P e

def InChoice (c : Json) : Prop :=
  ∀ members, c = .obj members → Field (InActions P) members "actions"

def InChoices (v : Json) : Prop := ∀ choices, v = .arr choices → ∀ c ∈ choices, InChoice P c

variable {P}

theorem inActions_arr {actions : List Json} :
    InActions P (.arr actions) ↔ ∀ e ∈ actions, AllWithin P e :=
  ⟨fun h => h actions rfl, fun h _ heq => by cases heq; exact h⟩

theorem inChoice_obj {members : Members} :
    InChoice P (.obj members) ↔ Field (InActions P) members "actions" :=
  ⟨fun h => h members rfl, fun h _ heq => by cases heq; exact h⟩

theorem inChoices_arr {choices : List Json} :
    InChoices P (.arr choices) ↔ ∀ c ∈ choices, InChoice P c :=
  ⟨fun h => h choices rfl, fun h _ heq => by cases heq; exact h⟩

/-- The elements in an object are itself and, if it is a menu, those among its actions. -/
theorem allWithin_obj {members : Members} : AllWithin P (.obj members) ↔ P members ∧
    (Json.find? "type" members = some (.str ElementKind.menu.name) →
      Field (InChoices P) members "choices") := by
  constructor
  · refine fun h => ⟨h members .self, ?_⟩
    rintro type _ hoffers choices rfl _ hchoice choice rfl _ hholds actions rfl e he inner hwithin
    exact h inner (.action type hoffers hchoice hholds he hwithin)
  · rintro ⟨hself, hmenu⟩ inner hwithin
    cases hwithin with
    | self => exact hself
    | action type offers choice_mem holds mem within =>
      have hchoice := inChoices_arr.1 (hmenu type _ offers) _ choice_mem
      exact inActions_arr.1 (inChoice_obj.1 hchoice _ holds) _ mem inner within

end

theorem conformsElement_iff {members : Members} {kind : ElementKind}
    (type : Json.find? "type" members = some (.str kind.name)) :
    ConformsElement (.obj members) ↔ HasString members "id" ∧
      match kind with
      | .statement kind => FieldsConform kind members
      | .menu => Field (OrNull (ListOf ConformsChoice)) members "choices" := by
  constructor
  · rintro (⟨kind', id, type', fields⟩ | ⟨id, type', choices⟩)
    · obtain rfl := kind_eq_of_find? (.statement kind') type type'
      exact ⟨id, fields⟩
    · obtain rfl := kind_eq_of_find? .menu type type'
      exact ⟨id, choices⟩
  · rintro ⟨id, h⟩
    cases kind with
    | statement kind => exact .statement kind id type h
    | menu => exact .menu id type h

theorem ConformsElement.id_type {members : Members} (h : ConformsElement (.obj members)) :
    HasString members "id" ∧
      ∃ kind : ElementKind, Json.find? "type" members = some (.str kind.name) := by
  cases h with
  | statement kind id type fields => exact ⟨id, .statement kind, type⟩
  | menu id type choices => exact ⟨id, .menu, type⟩

theorem conformsChoice_iff {members : Members} : ConformsChoice (.obj members) ↔
    HasString members "id" ∧ Field IsString members "text" ∧
      Field (OrNull IsString) members "condition" ∧
      Field (ListOf ConformsElement) members "actions" :=
  ⟨fun ⟨id, text, condition, actions⟩ => ⟨id, text, condition, actions⟩,
    fun ⟨id, text, condition, actions⟩ => .choice id text condition actions⟩

mutual

theorem decodeElement_decides : ∀ (path : Path) (v : Json),
    Decides (ConformsElement v) (AllWithin TextFits v) (AllWithin DurationFits v)
      (decodeElement path v)
  | path, .obj members => by
    rw [decodeElement]
    refine (required_decides path members "id").andThen (fun h => h.id_type.1.exists)
      fun id hid _ => ?_
    have hid := hasString_iff_of_some (required_eq_ok path members "id" hid)
    refine (decodeKind_decides path members).bind (fun h => h.id_type.2)
      (fun h => (allWithin_obj.1 h).1.1) fun kind hkind _ hshown => ?_
    have htype := decodeKind_eq_ok path members hkind
    have hiff := conformsElement_iff htype
    refine (asString_decides _ id).andThen (fun h => hid.1 (hiff.1 h).1) fun _ _ hs => ?_
    cases kind with
    | statement kind =>
      have hstatement := decodeStatement_decides (Q := AllWithin DurationFits (.obj members))
        path members kind (by rintro rfl hfits; exact (allWithin_obj.1 hfits).1 htype)
      refine hstatement.bind (fun h => (hiff.1 h).2) ?_ fun _ _ h hvalue => ?_
      · rintro h rfl
        exact (allWithin_obj.1 h).1.2 htype
      · refine ⟨hiff.2 ⟨hid.2 hs, h⟩,
          allWithin_obj.2 ⟨⟨hshown, fun hassign => ?_⟩, fun hmenu => ?_⟩⟩
        · cases kind_eq_of_find? (.statement .assign) htype hassign
          exact hvalue rfl
        · cases kind_eq_of_find? .menu htype hmenu
    | menu =>
      have hchoices := (decodeMenuChoices_decides (path.key "choices") members).mono Iff.rfl Iff.rfl
        fun h : AllWithin DurationFits (.obj members) => (allWithin_obj.1 h).2 htype
      refine hchoices.bind (fun h => (hiff.1 h).2) (fun h => (allWithin_obj.1 h).2 htype)
        fun _ _ h hinner => ?_
      refine ⟨hiff.2 ⟨hid.2 hs, h⟩, allWithin_obj.2 ⟨⟨hshown, fun hassign => ?_⟩, fun _ => hinner⟩⟩
      cases kind_eq_of_find? (.statement .assign) htype hassign
  | _, .null | _, .bool _ | _, .int _ | _, .float _ | _, .str _ | _, .arr _ => fun h => nomatch h

theorem decodeElements_decides : ∀ (path : Path) (i : Nat) (es : List Json),
    Decides (∀ e ∈ es, ConformsElement e) (∀ e ∈ es, AllWithin TextFits e)
      (∀ e ∈ es, AllWithin DurationFits e) (decodeElements path i es)
  | _, _, [] => ⟨nofun, nofun⟩
  | path, i, e :: es => by
    have hfirst := decodeElement_decides (path.index i) e
    have hrest := decodeElements_decides path (i + 1) es
    rw [decodeElements, List.forall_mem_cons, List.forall_mem_cons, List.forall_mem_cons]
    exact (hfirst.mono Iff.rfl Iff.rfl And.left).bind And.left And.left fun _ _ h hw =>
      (hrest.mono Iff.rfl Iff.rfl And.right).bind And.right And.right fun _ _ h' hw' =>
        ⟨⟨h, h'⟩, hw, hw'⟩

theorem decodeMenuChoices_decides : ∀ (path : Path) (members : Members),
    Decides (Field (OrNull (ListOf ConformsChoice)) members "choices")
      (Field (InChoices TextFits) members "choices")
      (Field (InChoices DurationFits) members "choices") (decodeMenuChoices path members)
  | _, [] => ⟨field_of_none rfl, field_of_none rfl⟩
  | path, (k, v) :: members => by
    rw [decodeMenuChoices, field_cons, field_cons, field_cons]
    split
    · exact decodeChoiceList_decides path v
    · exact decodeMenuChoices_decides path members

theorem decodeChoiceList_decides : ∀ (path : Path) (v : Json),
    Decides (OrNull (ListOf ConformsChoice) v) (InChoices TextFits v) (InChoices DurationFits v)
      (decodeChoiceList path v)
  | path, .arr choices => by
    refine (decodeChoices_decides path 0 choices).mono ?_ inChoices_arr.symm inChoices_arr.1
    refine ⟨fun h => .value (.list h), fun h => ?_⟩
    cases h with
    | value h => exact h.forall
  | path, .null => ⟨.null, nofun⟩
  | _, .bool _ | _, .int _ | _, .float _ | _, .str _ | _, .obj _ => fun h => by
    obtain _ | h := h
    cases h

theorem decodeChoices_decides : ∀ (path : Path) (i : Nat) (cs : List Json),
    Decides (∀ c ∈ cs, ConformsChoice c) (∀ c ∈ cs, InChoice TextFits c)
      (∀ c ∈ cs, InChoice DurationFits c) (decodeChoices path i cs)
  | _, _, [] => ⟨nofun, nofun⟩
  | path, i, c :: cs => by
    have hfirst := decodeChoice_decides (path.index i) c
    have hrest := decodeChoices_decides path (i + 1) cs
    rw [decodeChoices, List.forall_mem_cons, List.forall_mem_cons, List.forall_mem_cons]
    exact (hfirst.mono Iff.rfl Iff.rfl And.left).bind And.left And.left fun _ _ h hw =>
      (hrest.mono Iff.rfl Iff.rfl And.right).bind And.right And.right fun _ _ h' hw' =>
        ⟨⟨h, h'⟩, hw, hw'⟩

theorem decodeChoice_decides : ∀ (path : Path) (v : Json),
    Decides (ConformsChoice v) (InChoice TextFits v) (InChoice DurationFits v) (decodeChoice path v)
  | path, .obj members => by
    rw [decodeChoice, conformsChoice_iff]
    refine (required_decides path members "id").andThen (fun h => h.1.exists) fun id hid _ => ?_
    have hid := hasString_iff_of_some (required_eq_ok path members "id" hid)
    refine (listOrEmpty_decides _ members "actions").andThen
      (fun h => h.2.2.2.mono fun _ => ListOf.any) fun _ _ _ => ?_
    refine (asString_decides _ id).andThen (fun h => hid.1 h.1) fun _ _ hs => ?_
    refine (stringOrEmpty_decides path members "text").andThen (fun h => h.2.1)
      fun _ _ htext => ?_
    refine (string?_decides path members "condition").andThen (fun h => h.2.2.1)
      fun _ _ hcondition => ?_
    have hactions := (decodeActions_decides (path.key "actions") members).mono Iff.rfl
      inChoice_obj.symm inChoice_obj.1
    exact hactions.bind (fun h => h.2.2.2) (fun h => h) fun _ _ h hw =>
      ⟨⟨hid.2 hs, htext, hcondition, h⟩, hw⟩
  | _, .null | _, .bool _ | _, .int _ | _, .float _ | _, .str _ | _, .arr _ => fun h => nomatch h

theorem decodeActions_decides : ∀ (path : Path) (members : Members),
    Decides (Field (ListOf ConformsElement) members "actions")
      (Field (InActions TextFits) members "actions")
      (Field (InActions DurationFits) members "actions") (decodeActions path members)
  | _, [] => ⟨field_of_none rfl, field_of_none rfl⟩
  | path, (k, v) :: members => by
    rw [decodeActions, field_cons, field_cons, field_cons]
    split
    · exact decodeActionList_decides path v
    · exact decodeActions_decides path members

theorem decodeActionList_decides : ∀ (path : Path) (v : Json),
    Decides (ListOf ConformsElement v) (InActions TextFits v) (InActions DurationFits v)
      (decodeActionList path v)
  | path, .arr actions =>
    (decodeElements_decides path 0 actions).mono ⟨.list, ListOf.forall⟩ inActions_arr.symm
      inActions_arr.1
  | _, .null | _, .bool _ | _, .int _ | _, .float _ | _, .str _ | _, .obj _ => fun h => nomatch h

end

/-! ## Documents -/

theorem asObject_decides (v : Json) :
    Decides (ObjectOf (fun _ => True) v) True Q (asObject path v) := by
  cases v with
  | obj members => exact ⟨.object trivial, trivial⟩
  | _ => exact fun h => nomatch h

theorem objectOrEmpty_decides :
    Decides (Field (ObjectOf fun _ => True) members key) True Q
      (objectOrEmpty path members key) := by
  unfold objectOrEmpty
  split
  · exact ⟨field_of_none (by assumption), trivial⟩
  · rename_i v h
    exact (asObject_decides path v).mono (field_iff_of_some h).symm Iff.rfl id

theorem decodeCharacter_decides (v : Json) :
    Decides (ConformsCharacter v) True Q (decodeCharacter path v) := by
  cases v with
  | obj members =>
    rw [ConformsCharacter, objectOf_iff]
    refine (required_decides path members "id").andThen (fun h => h.1.exists) fun id hid _ => ?_
    refine (required_decides path members "name").andThen (fun h => h.2.1.exists)
      fun name hname _ => ?_
    have hid := hasString_iff_of_some (required_eq_ok path members "id" hid)
    have hname := hasString_iff_of_some (required_eq_ok path members "name" hname)
    refine (asString_decides _ id).andThen (fun h => hid.1 h.1) fun _ _ hs => ?_
    refine (asString_decides _ name).andThen (fun h => hname.1 h.2.1) fun _ _ hs' => ?_
    exact (string?_decides path members "color").andThen (fun h => h.2.2)
      fun _ _ hcolor => ⟨⟨hid.2 hs, hname.2 hs', hcolor⟩, trivial⟩
  | _ => exact fun h => nomatch h

theorem decodeCharacters_decides : ∀ (i : Nat) (cs : List Json),
    Decides (∀ c ∈ cs, ConformsCharacter c) True Q (decodeCharacters i cs)
  | _, [] => ⟨nofun, trivial⟩
  | i, c :: cs => by
    rw [decodeCharacters, List.forall_mem_cons]
    exact (decodeCharacter_decides _ c).andThen And.left fun _ _ h =>
      (decodeCharacters_decides (i + 1) cs).andThen And.right fun _ _ h' => ⟨⟨h, h'⟩, trivial⟩

theorem decodeAssets_decides :
    Decides (∀ key ∈ ["images", "audio", "backgrounds"], Field (ListOf fun _ => True) members key)
      True Q (decodeAssets members) :=
  (listOrEmpty_decides _ members _).bind_cons fun _ =>
    (listOrEmpty_decides _ members _).bind_cons fun _ =>
      (listOrEmpty_decides _ members _).bind_cons fun _ => decides_nil _ trivial

theorem objectOrEmpty_eq_ok {P : Members → Prop} {assets : Members}
    (h : objectOrEmpty path members key = .ok assets) (hnil : P []) :
    Field (ObjectOf P) members key ↔ P assets := by
  unfold objectOrEmpty at h
  split at h
  · cases h
    exact ⟨fun _ => hnil, fun _ => field_of_none (by assumption)⟩
  · rename_i v hv
    rw [field_iff_of_some hv]
    unfold asObject at h
    split at h
    · cases h
      exact objectOf_iff
    · cases h

/-- The elements of a document are those that its list has. -/
theorem allElements_iff {P : Members → Prop} {elements : List Json}
    (h : listOrEmpty path members "elements" = .ok elements) :
    AllElements P (.obj members) ↔ ∀ e ∈ elements, AllWithin P e := by
  obtain ⟨hnone, rfl⟩ | hsome := listOrEmpty_eq_ok path members "elements" h
  · refine iff_of_true ?_ nofun
    rintro _ _ ⟨⟩ hfind
    rw [hnone] at hfind
    cases hfind
  · refine ⟨fun h => h members elements rfl hsome, ?_⟩
    rintro h _ _ ⟨⟩ hfind
    rw [hsome] at hfind
    cases hfind
    exact h

theorem decodeScript_decides (v : Json) :
    Decides (Conforms v) (TextsFit v) (DurationsFit v) (decodeScript v) := by
  cases v with
  | obj members =>
    rw [Conforms, objectOf_iff]
    refine (listOrEmpty_decides _ members "characters").andThen
      (fun h => h.1.mono fun _ => ListOf.any) fun characters hcharacters _ => ?_
    refine (listOrEmpty_decides _ members "elements").andThen
      (fun h => h.2.1.mono fun _ => ListOf.any) fun elements helements _ => ?_
    refine (objectOrEmpty_decides _ members "assets").andThen
      (fun h => h.2.2.mono fun _ h => h.any) fun assets hassets _ => ?_
    have hcharacters' := field_listOf_iff (P := ConformsCharacter) _ _ _ hcharacters
    have helements' := field_listOf_iff (P := ConformsElement) _ _ _ helements
    have hassets' : Field ConformsAssets members "assets" ↔ _ := objectOrEmpty_eq_ok _ _ _ hassets
      fun _ _ => field_of_none rfl
    refine (decodeAssets_decides assets).andThen (fun h => hassets'.1 h.2.2) fun _ _ h3 => ?_
    refine (decodeCharacters_decides 0 characters).andThen (fun h => hcharacters'.1 h.1)
      fun _ _ h1 => ?_
    have hplay := (decodeElements_decides ⟨"elements", []⟩ 0 elements).mono Iff.rfl
      (allElements_iff _ members helements).symm (allElements_iff _ members helements).1
    exact hplay.bind (fun h => helements'.1 h.2.1) id
      fun _ _ h2 hw => ⟨⟨hcharacters'.2 h1, helements'.2 h2, hassets'.2 h3⟩, hw⟩
  | _ => exact fun h => nomatch h

end NovelScript.Document

namespace NovelScript.Script

open Document

/-- **Just the values that conform are read**, where no duration is out of range, and every other
value is refused with a fault of the document. This is so as long as the types and the assigned
values can be written as text; otherwise the value is refused in any case, with a fault of the
document only if it does not conform. -/
theorem ofJson_iff_conforms (v : Json) (hfits : DurationsFit v) :
    (TextsFit v → ((∃ s, ofJson v = .ok s) ↔ Conforms v) ∧
      (¬Conforms v → ∃ path cause, ofJson v = .error (.invalid path cause))) ∧
    (¬TextsFit v → ofJson v = .error .unwritable ∨
      ¬Conforms v ∧ ∃ path cause, ofJson v = .error (.invalid path cause)) := by
  have h := decodeScript_decides v
  unfold ofJson
  match hread : decodeScript v with
  | .ok s =>
    rw [hread] at h
    exact ⟨fun _ => ⟨⟨fun _ => h.1, fun _ => ⟨s, rfl⟩⟩, fun hn => absurd h.1 hn⟩,
      fun hn => absurd h.2 hn⟩
  | .error (.invalid path cause) =>
    rw [hread] at h
    exact ⟨fun _ => ⟨⟨fun ⟨_, hs⟩ => (nomatch hs), fun hc => absurd hc h⟩,
      fun _ => ⟨path, cause, rfl⟩⟩, fun _ => .inr ⟨h, path, cause, rfl⟩⟩
  | .error .outOfRange =>
    rw [hread] at h
    exact absurd hfits h
  | .error .unwritable =>
    rw [hread] at h
    exact ⟨fun hw => absurd hw h, fun _ => .inl rfl⟩

/-- An action that waits for three seconds. -/
def shortPause : Json :=
  .obj [("id", .str ""), ("type", .str "pause"), ("duration", .int 3)]

/-- A choice without a text, with `shortPause` as its action. -/
def pausingChoice : Json :=
  .obj [("id", .str "2"), ("condition", .null), ("actions", .arr [shortPause])]

/-- A document with one menu, which offers `pausingChoice`. -/
def pausing : Json :=
  .obj [("elements", .arr [
    .obj [("type", .str "menu"), ("id", .str "1"), ("choices", .arr [pausingChoice])]])]

theorem conforms_pausing : Conforms pausing := by
  have hpause : ConformsElement shortPause := by
    refine .statement .pause ⟨_, rfl⟩ rfl fun key hkey => ?_
    obtain rfl := List.mem_singleton.1 hkey
    exact (field_iff_of_some rfl).2 (.value (.inl ⟨3, rfl⟩))
  have hchoice : ConformsChoice pausingChoice :=
    conformsChoice_iff.2 ⟨⟨_, rfl⟩, field_of_none rfl, (field_iff_of_some rfl).2 .null,
      (field_iff_of_some rfl).2 (.list (by simpa using hpause))⟩
  refine .object ⟨field_of_none rfl, (field_iff_of_some rfl).2 (.list ?_), field_of_none rfl⟩
  rw [List.forall_mem_singleton]
  exact .menu ⟨_, rfl⟩ rfl ((field_iff_of_some rfl).2 (.value (.list (by simpa using hchoice))))

theorem allElements_pausing {P : Members → Prop}
    (hmenu : P [("type", .str "menu"), ("id", .str "1"), ("choices", .arr [pausingChoice])])
    (hpause : P [("id", .str ""), ("type", .str "pause"), ("duration", .int 3)]) :
    AllElements P pausing := by
  rintro _ _ ⟨⟩ ⟨⟩ e he inner hwithin
  obtain rfl := List.mem_singleton.1 he
  cases hwithin with
  | self => exact hmenu
  | action type offers choice_mem holds mem within =>
    cases offers
    cases List.mem_singleton.1 choice_mem
    cases holds
    obtain rfl := List.mem_singleton.1 mem
    cases within with
    | self => exact hpause
    | action type => simp [Json.find?, ElementKind.name] at type

theorem durationsFit_pausing : DurationsFit pausing := by
  refine allElements_pausing (fun htype => ?_) fun _ n hn => ?_
  · simp [Json.find?, StatementKind.name] at htype
  · cases hn
    decide +kernel

theorem textsFit_pausing : TextsFit pausing := by
  refine allElements_pausing ⟨(field_iff_of_some (v := .str "menu") rfl).2 trivial, fun h => ?_⟩
    ⟨(field_iff_of_some (v := .str "pause") rfl).2 trivial, fun h => ?_⟩ <;>
  simp [Json.find?, StatementKind.name] at h

theorem ofJson_iff_conforms_pausing :
    DurationsFit pausing ∧ TextsFit pausing ∧ Conforms pausing ∧ ∃ s, ofJson pausing = .ok s :=
  ⟨durationsFit_pausing, textsFit_pausing, conforms_pausing,
    ((ofJson_iff_conforms pausing durationsFit_pausing).1 textsFit_pausing).1.2 conforms_pausing⟩

/-- A document that assigns an integer. -/
def assigningInteger (n : Nat) : Json :=
  .obj [("elements", .arr [
    .obj [("id", .str "1"), ("type", .str "variable"), ("value", .int n)]])]

/-- A value that conforms may be refused: a document that assigns an integer which is too long to
be written. -/
theorem not_forall_ofJson_iff_conforms : ¬∀ v : Json, DurationsFit v →
    ((∃ s, ofJson v = .ok s) ↔ Conforms v) ∧
      (¬Conforms v → ∃ path cause, ofJson v = .error (.invalid path cause)) := by
  intro h
  obtain ⟨n, hn⟩ : ∃ n : Nat, Json.maxDigits < Json.digitCount n :=
    ⟨_, Json.maxDigits_lt_digitCount (Nat.le_refl _)⟩
  have hfits : DurationsFit (assigningInteger n) := by
    rintro _ _ ⟨⟩ ⟨⟩ e he inner hwithin
    obtain rfl := List.mem_singleton.1 he
    cases hwithin with
    | self => exact fun htype => by simp [Json.find?, StatementKind.name] at htype
    | action type => simp [Json.find?, ElementKind.name] at type
  have hconforms : Conforms (assigningInteger n) := by
    refine .object ⟨field_of_none rfl, (field_iff_of_some rfl).2 (.list ?_), field_of_none rfl⟩
    rw [List.forall_mem_singleton]
    refine .statement .assign ⟨_, rfl⟩ rfl fun key hkey => ?_
    rcases List.mem_pair.1 hkey with rfl | rfl
    · exact field_of_none rfl
    · exact (field_iff_of_some rfl).2 (.value trivial)
  obtain ⟨s, hs⟩ := (h (assigningInteger n) hfits).1.2 hconforms
  have hdecides := decodeScript_decides (assigningInteger n)
  rw [ofJson] at hs
  rw [hs] at hdecides
  have hshort : Json.digitCount n ≤ Json.maxDigits :=
    (hdecides.2 _ _ rfl rfl _ (.head _) _ .self).2 rfl _ rfl
  exact absurd hn hshort.not_gt

end NovelScript.Script
