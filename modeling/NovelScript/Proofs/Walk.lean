import NovelScript.Script.Walk

/-!
# What a walk reaches

`Element.Within` says that an element is another one or stands in its choices, at any depth. A walk
reaches just the elements within the top-level ones, each under the number of its top-level element
(`Script.mem_walk`).
-/

set_option autoImplicit false

namespace NovelScript

/-- Whether an element is another one or stands in a choice of it, at any depth. -/
inductive Element.Within (e : Element) : Element → Prop
  | self : Within e e
  | action {id : String} {choices : List Choice} {c : Choice} {a : Element} (hc : c ∈ choices)
    (ha : a ∈ c.actions) (h : Within e a) : Within e (.menu id choices)

variable {e : Element}

theorem mem_withInner : ∀ {es : List Element},
    e ∈ withInner es ↔ ∃ a ∈ es, e = a ∨ e ∈ a.inner
  | [] => by simp [withInner]
  | a :: es => by
    rw [withInner, List.cons_append, List.mem_cons, List.mem_append, mem_withInner]
    simp [or_assoc]

theorem mem_innerOfChoices : ∀ {cs : List Choice},
    e ∈ innerOfChoices cs ↔ ∃ c ∈ cs, e ∈ withInner c.actions
  | [] => by simp [innerOfChoices]
  | ⟨_, _, _, actions⟩ :: cs => by
    rw [innerOfChoices, List.mem_append, mem_innerOfChoices]
    simp

mutual

theorem Element.within_of_mem_inner : ∀ {top : Element}, e ∈ top.inner → e.Within top
  | .statement .., h => by cases h
  | .menu _ choices, h => by
    obtain ⟨c, hc, a, ha, hw⟩ := within_of_mem_innerOfChoices h
    exact .action hc ha hw

theorem within_of_mem_innerOfChoices : ∀ {cs : List Choice}, e ∈ innerOfChoices cs →
    ∃ c ∈ cs, ∃ a ∈ c.actions, e.Within a
  | ⟨id, text, condition, actions⟩ :: cs, h => by
    rw [innerOfChoices, List.mem_append] at h
    rcases h with h | h
    · exact ⟨_, .head _, within_of_mem_withInner h⟩
    · obtain ⟨c, hc, hw⟩ := within_of_mem_innerOfChoices h
      exact ⟨c, .tail _ hc, hw⟩

theorem within_of_mem_withInner : ∀ {es : List Element}, e ∈ withInner es →
    ∃ a ∈ es, e.Within a
  | a :: es, h => by
    rw [withInner, List.cons_append, List.mem_cons, List.mem_append] at h
    rcases h with rfl | h | h
    · exact ⟨_, .head _, .self⟩
    · exact ⟨a, .head _, Element.within_of_mem_inner h⟩
    · obtain ⟨b, hb, hw⟩ := within_of_mem_withInner h
      exact ⟨b, .tail _ hb, hw⟩

end

/-- **What stands within an element** is the element and what it holds. -/
theorem Element.within_iff {top : Element} : e.Within top ↔ e = top ∨ e ∈ top.inner := by
  constructor
  · intro h
    induction h with
    | self => exact .inl rfl
    | action hc ha _ ih =>
      exact .inr (mem_innerOfChoices.2 ⟨_, hc, mem_withInner.2 ⟨_, ha, ih⟩⟩)
  · rintro (rfl | h)
    · exact .self
    · exact within_of_mem_inner h

theorem mem_walkFrom {line : Nat} : ∀ {es : List Element} {n : Nat},
    (line, e) ∈ walkFrom n es ↔ ∃ i top, line = n + i ∧ es[i]? = some top ∧ e.Within top
  | [], n => by simp [walkFrom]
  | a :: es, n => by
    have hfirst : (line, e) ∈ (a :: a.inner).map (n, ·) ↔ line = n ∧ e.Within a := by
      rw [Element.within_iff, and_or_left, and_comm (b := e ∈ a.inner)]
      simp [eq_comm]
    rw [walkFrom, List.mem_append, hfirst, mem_walkFrom]
    constructor
    · rintro (⟨rfl, hw⟩ | ⟨i, top, rfl, htop, hw⟩)
      · exact ⟨0, a, rfl, rfl, hw⟩
      · exact ⟨i + 1, top, by omega, htop, hw⟩
    · rintro ⟨i, top, rfl, htop, hw⟩
      cases i with
      | zero =>
        cases htop
        exact .inl ⟨rfl, hw⟩
      | succ i => exact .inr ⟨i, top, by omega, htop, hw⟩

/-- **A walk** reaches what stands within the top-level elements, under their numbers. -/
theorem Script.mem_walk {s : Script} {line : Nat} :
    (line, e) ∈ s.walk ↔ ∃ i top, line = i + 1 ∧ s.elements[i]? = some top ∧ e.Within top := by
  rw [walk, mem_walkFrom]
  simp only [Nat.add_comm]

/-! ## The order of a walk -/

theorem pairwise_walkFrom : ∀ (es : List Element) (n : Nat),
    (walkFrom n es).Pairwise fun x y => x.1 ≤ y.1
  | [], _ => .nil
  | e :: es, n => by
    rw [walkFrom, List.pairwise_append]
    refine ⟨?_, pairwise_walkFrom es (n + 1), ?_⟩
    · rw [List.pairwise_map]
      exact List.pairwise_of_forall fun _ _ => Nat.le_refl n
    · rintro x hx ⟨line, f⟩ hy
      obtain ⟨a, -, rfl⟩ := List.mem_map.1 hx
      obtain ⟨i, -, rfl, -⟩ := mem_walkFrom.1 hy
      exact Nat.le_trans (Nat.le_add_right n 1) (Nat.le_add_right (n + 1) i)

/-- **The lines of a walk** never decrease. -/
theorem Script.pairwise_walk (s : Script) : s.walk.Pairwise fun x y => x.1 ≤ y.1 :=
  pairwise_walkFrom s.elements 1

end NovelScript
