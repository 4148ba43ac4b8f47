import NovelScript.Proofs.Document.NormalForm
import NovelScript.Proofs.Document.Places

/-!
# The fault that is reported

Each reader reports a fault at the place that it reads or at one within (`Faults`), so the path of
an error leads to what is wrong, and before that come only items that are decoded. What an item is
decoded to does not depend on the path (`PathFree`).
-/

set_option autoImplicit false

namespace NovelScript

namespace Document

/-! ## Results do not depend on the path -/

/-- Whether a reader gives the same result for every path. -/
def PathFree {α : Type} (read : Path → Decoded α) : Prop :=
  ∀ path path' a, read path = .ok a → read path' = .ok a

section
variable {α β : Type}

theorem pathFree_const (x : Decoded α) : PathFree fun _ => x :=
  fun _ _ _ h => h

theorem PathFree.bind {read : Path → Decoded α} {next : α → Path → Decoded β}
    (hread : PathFree read) (hnext : ∀ a, PathFree (next a)) :
    PathFree fun path => read path >>= fun a => next a path := by
  intro path path' b h
  obtain ⟨a, ha, hb⟩ := bind_eq_ok.1 h
  exact bind_eq_ok.2 ⟨a, hread path path' a ha, hnext a path path' b hb⟩

theorem PathFree.comp {read : Path → Decoded α} (h : PathFree read) (f : Path → Path) :
    PathFree fun path => read (f path) :=
  fun path path' a ha => h (f path) (f path') a ha

end

section
variable (members : Members) (key : String)

theorem pathFree_asString (v : Json) : PathFree fun path => asString path v := by
  intro path path' s h
  rw [asString_eq_ok h]
  rfl

theorem pathFree_asList (v : Json) : PathFree fun path => asList path v := by
  intro path path' items h
  rw [asList_eq_ok h]
  rfl

theorem pathFree_required : PathFree fun path => required path members key := by
  intro path path' v h
  have hfind := required_eq_ok path members key h
  simp only [required, hfind]

theorem pathFree_string? : PathFree fun path => string? path members key := by
  unfold string?
  split
  · exact pathFree_const _
  · exact pathFree_const _
  · rename_i v _ _
    exact ((pathFree_asString v).comp (·.key key)).bind fun s => pathFree_const (.ok (some s))

theorem pathFree_stringOr (default : String) :
    PathFree fun path => stringOr default path members key :=
  (pathFree_string? members key).bind fun _ => pathFree_const _

theorem pathFree_stringOrEmpty : PathFree fun path => stringOrEmpty path members key := by
  unfold stringOrEmpty
  split
  · exact pathFree_const _
  · exact (pathFree_asString _).comp (·.key key)

theorem pathFree_listOrEmpty : PathFree fun path => listOrEmpty path members key := by
  unfold listOrEmpty
  split
  · exact pathFree_const _
  · exact pathFree_asList _

theorem pathFree_asSeconds? (v : Json) : PathFree fun path => asSeconds? path v := by
  intro path path' x h
  cases v with
  | null | float _ | int _ => exact h
  | _ => cases h

theorem pathFree_seconds? : PathFree fun path => seconds? path members key := by
  unfold seconds?
  split
  · exact pathFree_const _
  · exact (pathFree_asSeconds? _).comp (·.key key)

theorem pathFree_decodeKind : PathFree fun path => decodeKind path members := by
  intro path path' kind h
  exact decodeKind_of_find? path' members (decodeKind_eq_ok path members h)

theorem pathFree_decodeStatement (kind : StatementKind) :
    PathFree fun path => decodeStatement path members kind := by
  have hstring := pathFree_string? members
  have hstringOr := pathFree_stringOr members
  cases kind with
  | dialogue | scene | hideImage =>
    exact (hstringOr _ _).bind fun _ => (hstring _).bind fun _ => pathFree_const _
  | showImage =>
    exact (hstringOr _ _).bind fun _ => (hstringOr _ _).bind fun _ => (hstring _).bind fun _ =>
      pathFree_const _
  | label | jump | call | stop | condition | code =>
    exact (hstringOr _ _).bind fun _ => pathFree_const _
  | assign =>
    exact (hstringOr _ _).bind fun _ => (pathFree_const (expression members _)).bind fun _ =>
      pathFree_const _
  | play => exact (hstringOr _ _).bind fun _ => (hstringOr _ _).bind fun _ => pathFree_const _
  | pause => exact (pathFree_seconds? members _).bind fun _ => pathFree_const _
  | goBack => exact pathFree_const _

end

mutual

theorem pathFree_decodeElement : ∀ v : Json, PathFree fun path => decodeElement path v
  | .obj members => by
    simp only [decodeElement]
    refine (pathFree_required members "id").bind fun id => (pathFree_decodeKind members).bind
      fun kind => ((pathFree_asString id).comp (·.key "id")).bind fun id => ?_
    cases kind with
    | statement kind => exact (pathFree_decodeStatement members kind).bind fun _ => pathFree_const _
    | menu =>
      exact ((pathFree_decodeMenuChoices members).comp (·.key "choices")).bind fun _ =>
        pathFree_const _
  | .null | .bool _ | .int _ | .float _ | .str _ | .arr _ => fun _ _ _ h => nomatch h

theorem pathFree_decodeElements : ∀ (vs : List Json) (i : Nat),
    PathFree fun path => decodeElements path i vs
  | [], _ => fun _ _ _ h => h
  | v :: vs, i => by
    simp only [decodeElements]
    exact ((pathFree_decodeElement v).comp (·.index i)).bind fun _ =>
      (pathFree_decodeElements vs (i + 1)).bind fun _ => pathFree_const _

theorem pathFree_decodeMenuChoices : ∀ members : Members,
    PathFree fun path => decodeMenuChoices path members
  | [] => fun _ _ _ h => h
  | (k, v) :: members => by
    simp only [decodeMenuChoices]
    split
    · exact pathFree_decodeChoiceList v
    · exact pathFree_decodeMenuChoices members

theorem pathFree_decodeChoiceList : ∀ v : Json, PathFree fun path => decodeChoiceList path v
  | .null => fun _ _ _ h => h
  | .arr items => by
    simp only [decodeChoiceList]
    exact pathFree_decodeChoices items 0
  | .bool _ | .int _ | .float _ | .str _ | .obj _ => fun _ _ _ h => nomatch h

theorem pathFree_decodeChoices : ∀ (vs : List Json) (i : Nat),
    PathFree fun path => decodeChoices path i vs
  | [], _ => fun _ _ _ h => h
  | v :: vs, i => by
    simp only [decodeChoices]
    exact ((pathFree_decodeChoice v).comp (·.index i)).bind fun _ =>
      (pathFree_decodeChoices vs (i + 1)).bind fun _ => pathFree_const _

theorem pathFree_decodeChoice : ∀ v : Json, PathFree fun path => decodeChoice path v
  | .obj members => by
    simp only [decodeChoice]
    exact (pathFree_required members "id").bind fun id =>
      ((pathFree_listOrEmpty members "actions").comp (·.key "actions")).bind fun _ =>
      ((pathFree_asString id).comp (·.key "id")).bind fun _ =>
      (pathFree_stringOrEmpty members "text").bind fun _ =>
      (pathFree_string? members "condition").bind fun _ =>
      ((pathFree_decodeActions members).comp (·.key "actions")).bind fun _ => pathFree_const _
  | .null | .bool _ | .int _ | .float _ | .str _ | .arr _ => fun _ _ _ h => nomatch h

theorem pathFree_decodeActions : ∀ members : Members,
    PathFree fun path => decodeActions path members
  | [] => fun _ _ _ h => h
  | (k, v) :: members => by
    simp only [decodeActions]
    split
    · exact pathFree_decodeActionList v
    · exact pathFree_decodeActions members

theorem pathFree_decodeActionList : ∀ v : Json, PathFree fun path => decodeActionList path v
  | .arr items => by
    simp only [decodeActionList]
    exact pathFree_decodeElements items 0
  | .null | .bool _ | .int _ | .float _ | .str _ | .obj _ => fun _ _ _ h => nomatch h

end

theorem pathFree_decodeCharacter (v : Json) : PathFree fun path => decodeCharacter path v := by
  cases v with
  | obj members =>
    exact (pathFree_required members "id").bind fun id =>
      (pathFree_required members "name").bind fun name =>
      ((pathFree_asString id).comp (·.key "id")).bind fun _ =>
      ((pathFree_asString name).comp (·.key "name")).bind fun _ =>
      (pathFree_string? members "color").bind fun _ => pathFree_const _
  | _ => exact fun _ _ _ h => nomatch h

/-! ## Faults -/

/-- What is said of a reader of a value: a fault that it reports is at the value or within it. -/
def Faults {α : Type} (path : Path) (place : Place) (v : Json) (x : Decoded α) : Prop :=
  ∀ p cause, x = .error (.invalid p cause) →
    ∃ rest, p = ⟨path.start, path.steps ++ rest⟩ ∧ FirstFault place v rest cause

section
variable {α β : Type} {path : Path} {place inner : Place} {v w : Json} {members : Members}
  {key : String} {x : Decoded α}

theorem faults_ok (a : α) : Faults path place v (.ok a) :=
  fun _ _ h => nomatch h

theorem faults_outOfRange : Faults path place v (.error .outOfRange : Decoded α) :=
  fun _ _ h => nomatch h

theorem faults_unwritable : Faults path place v (.error .unwritable : Decoded α) :=
  fun _ _ h => nomatch h

theorem faults_here {cause : Cause} (h : place.Violated v cause) :
    Faults path place v (.error (.invalid path cause) : Decoded α) := by
  rintro _ _ ⟨⟩
  exact ⟨[], by rw [List.append_nil], .here h⟩

theorem Faults.bind {f : α → Decoded β} (h : Faults path place v x)
    (hf : ∀ a, x = .ok a → Faults path place v (f a)) : Faults path place v (x >>= f) := by
  cases x with
  | ok a => exact hf a rfl
  | error e =>
    rintro p cause ⟨⟩
    exact h p cause rfl

/-- A fault of a member is one within the object. -/
theorem Faults.member (hfind : Json.find? key members = some w)
    (hholds : place.Holds members key inner) (h : Faults (path.key key) inner w x) :
    Faults path place (.obj members) x := by
  intro p cause hx
  obtain ⟨rest, rfl, hfault⟩ := h p cause hx
  exact ⟨.key key :: rest, by simp [Path.key], .member hfind hholds hfault⟩

/-- A fault of an item is one within the list, if the items before it are decoded. -/
theorem Faults.item {before after : List Json} (hitem : place.item? = some inner)
    (hbefore : ∀ u ∈ before, inner.Decodes u) (h : Faults (path.index before.length) inner w x) :
    Faults path place (.arr (before ++ w :: after)) x := by
  intro p cause hx
  obtain ⟨rest, rfl, hfault⟩ := h p cause hx
  refine ⟨.index before.length :: rest, by simp [Path.index], .item (by simp) hitem ?_ hfault⟩
  rwa [List.take_left']
  rfl

/-- A reader of the items of a list reads the first of those that are left, and then the others. -/
theorem Faults.cons {before after : List Json} {f : α → Decoded β}
    (hitem : place.item? = some inner)
    (hbefore : ∀ u ∈ before, inner.Decodes u) (hx : Faults (path.index before.length) inner w x)
    (hdecodes : ∀ a, x = .ok a → inner.Decodes w)
    (hf : ∀ a, (∀ u ∈ before ++ [w], inner.Decodes u) →
      Faults path place (.arr (before ++ [w] ++ after)) (f a)) :
    Faults path place (.arr (before ++ w :: after)) (x >>= f) := by
  refine (Faults.item hitem hbefore hx).bind fun a ha => ?_
  rw [List.append_cons]
  apply hf a
  intro u hu
  obtain hu | hu := List.mem_append.1 hu
  · exact hbefore u hu
  · rw [List.mem_singleton.1 hu]
    exact hdecodes a ha

/-! ## Readers of values -/

theorem wrongKind_faults (hkind : v.kind ∉ place.kinds)
    (hnull : place.admitsNull → v.kind ≠ .null) :
    Faults path place v (wrongKind path place.kinds v : Decoded α) :=
  faults_here (.wrongKind hkind hnull)

/-- A reader of one kind of values reports every value of another kind. -/
theorem faults_of_kind {kind : Json.Kind} (hkinds : place.kinds = [kind])
    (hnull : place.admitsNull → v.kind ≠ .null)
    (hx : (∃ a, x = .ok a) ∨ v.kind ≠ kind ∧ x = wrongKind path [kind] v) :
    Faults path place v x := by
  obtain ⟨a, rfl⟩ | ⟨hkind, rfl⟩ := hx
  · exact faults_ok a
  · rw [← hkinds]
    refine wrongKind_faults ?_ hnull
    rwa [hkinds, List.mem_singleton]

theorem asString_faults (hkinds : place.kinds = [.str])
    (hnull : place.admitsNull → v.kind ≠ .null) : Faults path place v (asString path v) := by
  refine faults_of_kind hkinds hnull ?_
  cases v <;> simp [asString, Json.kind]

theorem asList_faults (hkinds : place.kinds = [.arr])
    (hnull : place.admitsNull → v.kind ≠ .null) : Faults path place v (asList path v) := by
  refine faults_of_kind hkinds hnull ?_
  cases v <;> simp [asList, Json.kind]

theorem asObject_faults (hkinds : place.kinds = [.obj])
    (hnull : place.admitsNull → v.kind ≠ .null) : Faults path place v (asObject path v) := by
  refine faults_of_kind hkinds hnull ?_
  cases v <;> simp [asObject, Json.kind]

theorem required_faults (hkey : key ∈ place.requiredKeys) :
    Faults path place (.obj members) (required path members key) := by
  unfold required
  split
  · exact faults_ok _
  · exact faults_here (.missing hkey (by assumption))

theorem string?_faults (hholds : place.Holds members key .optionalString) :
    Faults path place (.obj members) (string? path members key) := by
  unfold string?
  split
  · exact faults_ok _
  · exact faults_ok _
  · rename_i v hne hfind
    refine .member hfind hholds ?_
    refine (asString_faults rfl fun _ hnull => ?_).bind fun s _ => faults_ok (some s)
    cases v <;> cases hnull
    exact hne rfl

theorem stringOr_faults {default : String} (hholds : place.Holds members key .optionalString) :
    Faults path place (.obj members) (stringOr default path members key) :=
  (string?_faults hholds).bind fun _ _ => faults_ok _

theorem stringOrEmpty_faults (hholds : place.Holds members key .string) :
    Faults path place (.obj members) (stringOrEmpty path members key) := by
  unfold stringOrEmpty
  split
  · exact faults_ok _
  · rename_i v hfind
    exact .member hfind hholds (asString_faults rfl nofun)

theorem listOrEmpty_faults (hholds : place.Holds members key inner) (hkinds : inner.kinds = [.arr])
    (hnull : inner.admitsNull = false) :
    Faults path place (.obj members) (listOrEmpty (path.key key) members key) := by
  unfold listOrEmpty
  split
  · exact faults_ok _
  · rename_i v hfind
    refine .member hfind hholds (asList_faults hkinds fun h => ?_)
    rw [hnull] at h
    cases h

theorem asSeconds?_faults : Faults path .duration v (asSeconds? path v) := by
  cases v with
  | null | float x => exact faults_ok _
  | int n =>
    rw [asSeconds?]
    cases Binary64.ofInt? n with
    | none => exact faults_outOfRange
    | some x => exact faults_ok _
  | bool b => exact faults_here .notNumber
  | _ => exact wrongKind_faults (by simp [Place.kinds, Json.kind]) fun _ => by simp [Json.kind]

theorem seconds?_faults (hholds : place.Holds members key .duration) :
    Faults path place (.obj members) (seconds? path members key) := by
  unfold seconds?
  split
  · exact faults_ok _
  · rename_i v hfind
    exact .member hfind hholds asSeconds?_faults

/-! ## Readers of elements -/

theorem unknownType_faults (h : ∀ kind : ElementKind, v ≠ .str kind.name) :
    Faults path .type v (unknownType path v : Decoded α) := by
  unfold unknownType
  cases hshown : v.literal with
  | none => exact faults_unwritable
  | some shown => exact faults_here (.unknownType h hshown)

theorem expression_faults : Faults path place v (expression members key) := by
  unfold expression
  split
  · exact faults_ok _
  · exact faults_ok _
  · rename_i w _ _
    cases expressionText w with
    | none => exact faults_unwritable
    | some text => exact faults_ok text

theorem decodeKind_faults : Faults path .element (.obj members) (decodeKind path members) := by
  by_cases hkind : ∃ kind : ElementKind, Json.find? "type" members = some (.str kind.name)
  · obtain ⟨kind, hfind⟩ := hkind
    rw [decodeKind_of_find? path members hfind]
    exact faults_ok kind
  · rw [decodeKind_of_not path members hkind]
    cases hfind : Json.find? "type" members with
    | none =>
      rintro _ _ ⟨⟩
      exact ⟨[.key "type"], rfl, .absentType hfind⟩
    | some v =>
      exact .member hfind .type (unknownType_faults fun kind h => hkind ⟨kind, by rw [hfind, h]⟩)

theorem decodeStatement_faults {kind : StatementKind}
    (htype : Json.find? "type" members = some (.str kind.name)) :
    Faults path .element (.obj members) (decodeStatement path members kind) := by
  have hholds : ∀ {key : String} {inner : Place}, key ∈ kind.fields →
      Place.field? kind key = some inner → Place.element.Holds members key inner := .field htype
  cases kind with
  | dialogue | scene | hideImage =>
    exact (stringOr_faults (hholds (by decide) rfl)).bind fun _ _ =>
      (string?_faults (hholds (by decide) rfl)).bind fun _ _ => faults_ok _
  | showImage =>
    exact (stringOr_faults (hholds (by decide) rfl)).bind fun _ _ =>
      (stringOr_faults (hholds (by decide) rfl)).bind fun _ _ =>
      (string?_faults (hholds (by decide) rfl)).bind fun _ _ => faults_ok _
  | label | jump | call | stop | condition | code =>
    exact (stringOr_faults (hholds (by decide) rfl)).bind fun _ _ => faults_ok _
  | assign =>
    exact (stringOr_faults (hholds (by decide) rfl)).bind fun _ _ =>
      expression_faults.bind fun _ _ => faults_ok _
  | play =>
    exact (stringOr_faults (hholds (by decide) rfl)).bind fun _ _ =>
      (stringOr_faults (hholds (by decide) rfl)).bind fun _ _ => faults_ok _
  | pause => exact (seconds?_faults (hholds (by decide) rfl)).bind fun _ _ => faults_ok _
  | goBack => exact faults_ok _

end

mutual

theorem decodeElement_faults : ∀ (path : Path) (v : Json),
    Faults path .element v (decodeElement path v)
  | path, .obj members => by
    rw [decodeElement]
    refine (required_faults (.head _)).bind fun id hid => ?_
    refine decodeKind_faults.bind fun kind hkind => ?_
    have hid := required_eq_ok path members "id" hid
    have htype := decodeKind_eq_ok path members hkind
    refine (Faults.member hid .elementId (asString_faults rfl nofun)).bind fun id _ => ?_
    cases kind with
    | statement kind => exact (decodeStatement_faults htype).bind fun _ _ => faults_ok _
    | menu =>
      exact (decodeMenuChoices_faults path members (.choices htype) rfl).bind fun _ _ => faults_ok _
  | path, .null | path, .bool _ | path, .int _ | path, .float _ | path, .str _ | path, .arr _ =>
    wrongKind_faults (by simp [Place.kinds, Json.kind]) nofun

/-- The elements of a list from one on, when those before it are decoded. -/
theorem decodeElements_faults : ∀ (path : Path) (vs before : List Json),
    (∀ u ∈ before, Place.element.Decodes u) →
      Faults path .elements (.arr (before ++ vs)) (decodeElements path before.length vs)
  | _, [], _, _ => faults_ok []
  | path, v :: vs, before, hbefore => by
    rw [decodeElements]
    refine Faults.cons rfl hbefore (decodeElement_faults (path.index before.length) v)
      (fun e he path' => ⟨e, pathFree_decodeElement v _ path' e he⟩) fun e hbefore => ?_
    have hrest := decodeElements_faults path vs (before ++ [v]) hbefore
    rw [List.length_append] at hrest
    exact hrest.bind fun _ _ => faults_ok _

/-- The choices among the members of a menu that are left. -/
theorem decodeMenuChoices_faults : ∀ (path : Path) (members : Members) {menu : Members},
    Place.element.Holds menu "choices" .choices →
      Json.find? "choices" menu = Json.find? "choices" members →
        Faults path .element (.obj menu) (decodeMenuChoices (path.key "choices") members)
  | _, [], _, _, _ => faults_ok []
  | path, (k, v) :: members, _, hholds, hfind => by
    rw [decodeMenuChoices]
    rw [Json.find?] at hfind
    by_cases hk : k = "choices"
    · rw [if_pos hk] at hfind ⊢
      exact .member hfind hholds (decodeChoiceList_faults _ v)
    · rw [if_neg hk] at hfind ⊢
      exact decodeMenuChoices_faults path members hholds hfind

theorem decodeChoiceList_faults : ∀ (path : Path) (v : Json),
    Faults path .choices v (decodeChoiceList path v)
  | _, .null => faults_ok []
  | path, .arr items => decodeChoices_faults path items [] nofun
  | path, .bool _ | path, .int _ | path, .float _ | path, .str _ | path, .obj _ =>
    wrongKind_faults (by simp [Place.kinds, Json.kind]) nofun

/-- The choices of a list from one on, when those before it are decoded. -/
theorem decodeChoices_faults : ∀ (path : Path) (vs before : List Json),
    (∀ u ∈ before, Place.choice.Decodes u) →
      Faults path .choices (.arr (before ++ vs)) (decodeChoices path before.length vs)
  | _, [], _, _ => faults_ok []
  | path, v :: vs, before, hbefore => by
    rw [decodeChoices]
    refine Faults.cons rfl hbefore (decodeChoice_faults (path.index before.length) v)
      (fun c hc path' => ⟨c, pathFree_decodeChoice v _ path' c hc⟩) fun c hbefore => ?_
    have hrest := decodeChoices_faults path vs (before ++ [v]) hbefore
    rw [List.length_append] at hrest
    exact hrest.bind fun _ _ => faults_ok _

theorem decodeChoice_faults : ∀ (path : Path) (v : Json),
    Faults path .choice v (decodeChoice path v)
  | path, .obj members => by
    rw [decodeChoice]
    refine (required_faults (.head _)).bind fun id hid => ?_
    have hid := required_eq_ok path members "id" hid
    exact (listOrEmpty_faults .actions rfl rfl).bind fun _ _ =>
      (Faults.member hid .choiceId (asString_faults rfl nofun)).bind fun _ _ =>
      (stringOrEmpty_faults .text).bind fun _ _ =>
      (string?_faults .condition).bind fun _ _ =>
      (decodeActions_faults path members rfl).bind fun _ _ => faults_ok _
  | path, .null | path, .bool _ | path, .int _ | path, .float _ | path, .str _ | path, .arr _ =>
    wrongKind_faults (by simp [Place.kinds, Json.kind]) nofun

/-- The actions among the members of a choice that are left. -/
theorem decodeActions_faults : ∀ (path : Path) (members : Members) {choice : Members},
    Json.find? "actions" choice = Json.find? "actions" members →
      Faults path .choice (.obj choice) (decodeActions (path.key "actions") members)
  | _, [], _, _ => faults_ok []
  | path, (k, v) :: members, _, hfind => by
    rw [decodeActions]
    rw [Json.find?] at hfind
    by_cases hk : k = "actions"
    · rw [if_pos hk] at hfind ⊢
      exact .member hfind .actions (decodeActionList_faults _ v)
    · rw [if_neg hk] at hfind ⊢
      exact decodeActions_faults path members hfind

theorem decodeActionList_faults : ∀ (path : Path) (v : Json),
    Faults path .elements v (decodeActionList path v)
  | path, .arr items => decodeElements_faults path items [] nofun
  | path, .null | path, .bool _ | path, .int _ | path, .float _ | path, .str _ | path, .obj _ =>
    wrongKind_faults (by simp [Place.kinds, Json.kind]) nofun

end

/-! ## Readers of the other parts -/

theorem decodeCharacter_faults (path : Path) (v : Json) :
    Faults path .character v (decodeCharacter path v) := by
  cases v with
  | obj members =>
    refine (required_faults (.head _)).bind fun id hid => ?_
    refine (required_faults (.tail _ (.head _))).bind fun name hname => ?_
    have hid := required_eq_ok path members "id" hid
    have hname := required_eq_ok path members "name" hname
    exact (Faults.member hid .characterId (asString_faults rfl nofun)).bind fun _ _ =>
      (Faults.member hname .characterName (asString_faults rfl nofun)).bind fun _ _ =>
      (string?_faults .color).bind fun _ _ => faults_ok _
  | _ => exact wrongKind_faults (by simp [Place.kinds, Json.kind]) nofun

/-- The characters of a document from one on, when those before it are decoded. -/
theorem decodeCharacters_faults : ∀ (vs before : List Json),
    (∀ u ∈ before, Place.character.Decodes u) →
      Faults ⟨"characters", []⟩ .characters (.arr (before ++ vs))
        (decodeCharacters before.length vs)
  | [], _, _ => faults_ok []
  | v :: vs, before, hbefore => by
    rw [decodeCharacters]
    refine Faults.cons rfl hbefore (decodeCharacter_faults (Path.index _ before.length) v)
      (fun c hc path' => ⟨c, pathFree_decodeCharacter v _ path' c hc⟩) fun c hbefore => ?_
    have hrest := decodeCharacters_faults vs (before ++ [v]) hbefore
    rw [List.length_append] at hrest
    exact hrest.bind fun _ _ => faults_ok _

theorem decodes_of_decodeCharacters : ∀ (vs : List Json) (i : Nat) {cs : List Character},
    decodeCharacters i vs = .ok cs → ∀ v ∈ vs, Place.character.Decodes v
  | [], _, _, _ => nofun
  | v :: vs, i, _, h => by
    rw [decodeCharacters] at h
    obtain ⟨c, hc, h⟩ := bind_eq_ok.1 h
    obtain ⟨cs, hcs, -⟩ := bind_eq_ok.1 h
    exact List.forall_mem_cons.2 ⟨fun path => ⟨c, pathFree_decodeCharacter v _ path c hc⟩,
      decodes_of_decodeCharacters vs (i + 1) hcs⟩

theorem decodeAssets_faults (members : Members) :
    Faults ⟨"assets", []⟩ .assets (.obj members) (decodeAssets members) :=
  (listOrEmpty_faults (.assetList (by decide)) rfl rfl).bind fun _ _ =>
    (listOrEmpty_faults (.assetList (by decide)) rfl rfl).bind fun _ _ =>
    (listOrEmpty_faults (.assetList (by decide)) rfl rfl).bind fun _ _ => faults_ok _

/-! ## Documents -/

/-- Whether all that is read before the elements of a document is as it should be. -/
structure ReadBefore (members : Members) : Prop where
  characters : Field (ListOf Place.character.Decodes) members "characters"
  elements : Field (ListOf fun _ => True) members "elements"
  assets : Field ConformsAssets members "assets"

/-- What is said of a reader of a document: a fault that it reports is the first one, and within the
elements only if all that is read before them is as it should be. -/
def TopFaults {α : Type} (v : Json) (x : Decoded α) : Prop :=
  ∀ p cause, x = .error (.invalid p cause) →
    p.FromTop ∧ FirstFault .document v p.toSteps cause ∧
      ∀ members i rest, v = .obj members → p.toSteps = .key "elements" :: .index i :: rest →
        ReadBefore members

section
variable {α β : Type} {members : Members} {key : String} {inner : Place} {x : Decoded α}

theorem TopFaults.bind {v : Json} {f : α → Decoded β} (h : TopFaults v x)
    (hf : ∀ a, x = .ok a → TopFaults v (f a)) : TopFaults v (x >>= f) := by
  cases x with
  | ok a => exact hf a rfl
  | error e =>
    rintro p cause ⟨⟩
    exact h p cause rfl

theorem toSteps_of_mem {steps : List Step} (hkey : key ∈ ["characters", "elements", "assets"]) :
    Path.toSteps ⟨key, steps⟩ = .key key :: steps := by
  apply if_neg
  rintro rfl
  exact absurd hkey (by decide)

/-- A fault of a member of a document is one of the document. -/
theorem topFaults_member {w : Json} (hkey : key ∈ ["characters", "elements", "assets"])
    (hfind : Json.find? key members = some w) (hholds : Place.document.Holds members key inner)
    (h : Faults ⟨key, []⟩ inner w x)
    (hbefore : ∀ i rest cause, x = .error (.invalid ⟨key, .index i :: rest⟩ cause) →
      key = "elements" → ReadBefore members) : TopFaults (.obj members) x := by
  intro p cause hx
  obtain ⟨rest, rfl, hfault⟩ := h p cause hx
  rw [List.nil_append] at hx ⊢
  rw [toSteps_of_mem hkey]
  refine ⟨.inr hkey, .member hfind hholds hfault, ?_⟩
  intro members' i rest' hv hsteps
  cases hv
  rw [List.cons.injEq, Step.key.injEq] at hsteps
  obtain ⟨helements, rfl⟩ := hsteps
  exact hbefore i rest' cause hx helements

theorem path_of_asList {path p : Path} {v : Json} {cause : Cause}
    (h : asList path v = .error (.invalid p cause)) : p = path := by
  cases v <;> cases h <;> rfl

/-- A list of a document that has another form is reported itself. -/
theorem topFaults_listOrEmpty (hkey : key ∈ ["characters", "elements", "assets"])
    (hholds : Place.document.Holds members key inner) (hkinds : inner.kinds = [.arr])
    (hnull : inner.admitsNull = false) :
    TopFaults (.obj members) (listOrEmpty ⟨key, []⟩ members key) := by
  unfold listOrEmpty
  split
  · exact fun _ _ h => nomatch h
  · rename_i w hfind
    refine topFaults_member hkey hfind hholds (asList_faults hkinds fun h => ?_) ?_
    · rw [hnull] at h
      cases h
    · intro i rest cause hx
      cases path_of_asList hx

/-- What is read from a member of a document, or from its default where the key is absent. -/
theorem topFaults_getD {default w : Json} (hkey : key ∈ ["characters", "elements", "assets"])
    (hholds : Place.document.Holds members key inner)
    (hw : (Json.find? key members).getD default = w)
    (hdefault : default = w → ∀ p cause, x ≠ .error (.invalid p cause))
    (h : Faults ⟨key, []⟩ inner w x) (hbefore : key = "elements" → ReadBefore members) :
    TopFaults (.obj members) x := by
  cases hfind : Json.find? key members with
  | none =>
    rw [hfind] at hw
    exact fun p cause hx => absurd hx (hdefault hw p cause)
  | some v =>
    rw [hfind] at hw
    cases hw
    exact topFaults_member hkey hfind hholds h fun _ _ _ _ => hbefore

theorem readBefore_of_ok {characters elements : List Json} {assets : Members} {lists : Assets}
    {cast : List Character}
    (hcharacters : listOrEmpty ⟨"characters", []⟩ members "characters" = .ok characters)
    (helements : listOrEmpty ⟨"elements", []⟩ members "elements" = .ok elements)
    (hassets : objectOrEmpty ⟨"assets", []⟩ members "assets" = .ok assets)
    (hlists : decodeAssets assets = .ok lists)
    (hcast : decodeCharacters 0 characters = .ok cast) : ReadBefore members where
  characters :=
    (field_listOf_iff _ members _ hcharacters).2 (decodes_of_decodeCharacters characters 0 hcast)
  elements := (field_listOf_iff _ members _ helements).2 fun _ _ => trivial
  assets := by
    have hdecides := decodeAssets_decides (Q := True) assets
    rw [hlists] at hdecides
    exact (objectOrEmpty_eq_ok _ members _ hassets fun _ _ => field_of_none rfl).2 hdecides.1

theorem decodeScript_faults (v : Json) : TopFaults v (decodeScript v) := by
  cases v with
  | obj members =>
    have hlist := @topFaults_listOrEmpty members
    refine (hlist (by decide) .characters rfl rfl).bind fun characters hcharacters => ?_
    refine (hlist (by decide) .elements rfl rfl).bind fun elements helements => ?_
    have hassets : TopFaults (.obj members) (objectOrEmpty ⟨"assets", []⟩ members "assets") := by
      unfold objectOrEmpty
      split
      · exact fun _ _ h => nomatch h
      · rename_i w hfind
        exact topFaults_member (by decide) hfind .assets (asObject_faults rfl nofun) nofun
    refine hassets.bind fun assets hassets => ?_
    have hlists : TopFaults (.obj members) (decodeAssets assets) := by
      refine topFaults_getD (by decide) .assets (getD_of_objectOrEmpty hassets) ?_
        (decodeAssets_faults assets) nofun
      rintro ⟨⟩
      exact nofun
    refine hlists.bind fun lists hlists => ?_
    have hcast : TopFaults (.obj members) (decodeCharacters 0 characters) := by
      refine topFaults_getD (by decide) .characters (getD_of_listOrEmpty hcharacters) ?_
        (decodeCharacters_faults characters [] nofun) nofun
      rintro ⟨⟩
      exact nofun
    refine hcast.bind fun cast hcast => ?_
    have hplay : TopFaults (.obj members) (decodeElements ⟨"elements", []⟩ 0 elements) := by
      refine topFaults_getD (by decide) .elements (getD_of_listOrEmpty helements) ?_
        (decodeElements_faults _ elements [] nofun) fun _ => ?_
      · rintro ⟨⟩
        exact nofun
      · exact readBefore_of_ok hcharacters helements hassets hlists hcast
    exact hplay.bind fun _ _ _ _ h => nomatch h
  | _ =>
    rintro p cause ⟨⟩
    refine ⟨.inl rfl, .here (.wrongKind ?_ ?_), ?_⟩
    · simp [Place.kinds, Json.kind]
    · exact nofun
    · exact nofun

end

end Document

namespace Script

open Document

/-- **The fault of a document** is reported with the path to it and what is wrong there. The path
leads to a node that breaks the format in this way, or to the type that an element does not have,
and in each list on the way the items before are decoded. Within the elements a fault is reported
only where the lists and the catalogue of the document have the right form and all its characters
are decoded. -/
theorem firstFault_of_ofJson {v : Json} {p : Path} {cause : Cause}
    (h : ofJson v = .error (.invalid p cause)) :
    (LoadError.ofDecode (.invalid p cause)).message = p.text ++ ": " ++ cause.message ∧ p.FromTop ∧
    ((∃ node place, node? v p.toSteps = some node ∧ Place.Violated place node cause) ∨
      LacksType v p.toSteps cause) ∧
    FirstFault .document v p.toSteps cause ∧
    ∀ members i rest, v = .obj members → p.toSteps = .key "elements" :: .index i :: rest →
      ReadBefore members := by
  obtain ⟨hpath, hfault, hbefore⟩ := decodeScript_faults v p cause h
  exact ⟨rfl, hpath, hfault.leads, hfault, hbefore⟩

/-- A document with a fault deep within its second element, behind other elements in order. -/
def deepFault : Json :=
  .obj [("characters", .arr [.obj [("name", .str "Eve"), ("id", .str "e")]]),
    ("elements", .arr [
      .obj [("id", .str "1"), ("type", .str "return")],
      .obj [("id", .str "2"), ("type", .str "menu"), ("choices", .arr [
        .obj [("id", .str "3")],
        .obj [("id", .str "4"), ("actions", .arr [
          .obj [("id", .str "5"), ("type", .str "pause"), ("duration", .null)],
          .obj [("id", .str "6"), ("type", .str "pause"), ("duration", .bool true)]])]])],
      .null])]

theorem firstFault_of_ofJson_deepFault :
    ofJson deepFault = .error (.invalid ⟨"elements", [.index 1, .key "choices", .index 1,
      .key "actions", .index 1, .key "duration"]⟩ .notNumber) ∧
    FirstFault .document deepFault [.key "elements", .index 1, .key "choices", .index 1,
      .key "actions", .index 1, .key "duration"] .notNumber := by
  have h : ofJson deepFault = .error (.invalid ⟨"elements", [.index 1, .key "choices", .index 1,
      .key "actions", .index 1, .key "duration"]⟩ .notNumber) := rfl
  exact ⟨h, (firstFault_of_ofJson h).2.2.2.1⟩

/-- **Not every path of a fault leads to a node**: that of the type of an element without one does
not. -/
theorem not_forall_exists_node :
    ¬∀ (v : Json) (p : Path) (cause : Cause), ofJson v = .error (.invalid p cause) →
      ∃ node, node? v p.toSteps = some node := by
  intro h
  obtain ⟨node, hnode⟩ := h (.obj [("elements", .arr [.obj [("id", .str "x")]])])
    ⟨"elements", [.index 0, .key "type"]⟩ (.unknownType "None") rfl
  cases hnode

end Script

end NovelScript
