import Mathlib
import TimingDiagram.Document.Load
import TimingDiagram.Proofs.Basic

namespace TimingDiagram.Document

-- Strings and numbers are texts, a number as it is printed.
inductive TextOf : Json → String → Prop
  | string (s : String) : TextOf (.string s) s
  | number (n : Json.Number) : TextOf (.number n) n.text

def IsText (value : Json) : Prop := ∃ s, TextOf value s

-- What a list that starts with a tag consists of. The second item belongs to the tag if it is an
-- object; the children are all items behind, the first of them item `first`.
inductive MarkupParts (tag : String) : List Json → Members → List Json → ℕ → Prop
  | attributed (members : Members) (children : List Json) :
    MarkupParts tag (.string tag :: .object members :: children) members children 2
  | plain (children : List Json) (h : ∀ members, children.head? ≠ some (.object members)) :
    MarkupParts tag (.string tag :: children) [] children 1

-- Markup is a list with a tag, attributes that are texts, and children that are texts or markup.
inductive IsMarkup : Json → Prop
  | node {tag : String} {items children : List Json} {members : Members} {first : ℕ}
    (parts : MarkupParts tag items members children first) (attrs : ∀ m ∈ members, IsText m.2)
    (rest : ∀ child ∈ children, ¬ IsText child → IsMarkup child) : IsMarkup (.array items)

-- The node that a text or markup stands for: it has the tag, the attributes and the children of the
-- list, one for one and in their order.
inductive Denotes : Json → Node → Prop
  | text {value : Json} {s : String} (h : TextOf value s) : Denotes value (.text s)
  | node {tag : String} {items children : List Json} {members : Members} {first : ℕ}
    {attrs : List (String × String)} {nodes : List Node}
    (parts : MarkupParts tag items members children first)
    (attributes : List.Forall₂ (fun m a => a.1 = m.1 ∧ TextOf m.2 a.2) members attrs)
    (rest : List.Forall₂ Denotes children nodes) :
    Denotes (.array items) (.element tag attrs nodes)

-- The first fault of a value that is no markup, with the path of the list that it is in. Whatever
-- stands in front of it in the document is as it should be.
inductive FirstFault : Path → Json → Path → MarkupFault → Prop
  | notList {path : Path} {value : Json} (h : ∀ items, value ≠ .array items) :
    FirstFault path value path .notList
  | noTag {path : Path} {items : List Json} (h : ∀ tag, items.head? ≠ some (.string tag)) :
    FirstFault path (.array items) path .noTag
  | attr {path : Path} {tag name : String} {items children : List Json} {value : Json}
    {front back : Members} {first : ℕ}
    (parts : MarkupParts tag items (front ++ (name, value) :: back) children first)
    (attrs : ∀ m ∈ front, IsText m.2) (h : ¬ IsText value) :
    FirstFault path (.array items) path (.attribute name)
  | child {path : Path} {tag : String} {items front back : List Json} {value : Json}
    {members : Members} {first : ℕ}
    (parts : MarkupParts tag items members (front ++ value :: back) first)
    (attrs : ∀ m ∈ members, IsText m.2) (rest : ∀ child ∈ front, IsText child ∨ IsMarkup child)
    (h : ¬ IsText value) (hlist : ∀ inner, value ≠ .array inner) :
    FirstFault path (.array items) path .child
  | inner {path p : Path} {tag : String} {items front inner back : List Json} {members : Members}
    {first : ℕ} {fault : MarkupFault}
    (parts : MarkupParts tag items members (front ++ .array inner :: back) first)
    (attrs : ∀ m ∈ members, IsText m.2) (rest : ∀ child ∈ front, IsText child ∨ IsMarkup child)
    (h : FirstFault (path ++ [.item (first + front.length)]) (.array inner) p fault) :
    FirstFault path (.array items) p fault

theorem scalarText?_eq_some_iff {value : Json} {s : String} :
    scalarText? value = some s ↔ TextOf value s := by
  constructor
  · intro h
    cases value with
    | string t =>
        cases h
        exact .string s
    | number n =>
        cases h
        exact .number n
    | null | bool b | array items | object members => cases h
  · rintro (_ | _) <;> rfl

theorem scalarText?_eq_none_iff {value : Json} : scalarText? value = none ↔ ¬ IsText value := by
  rw [IsText, ← Option.not_isSome_iff_eq_none, Option.isSome_iff_exists]
  simp only [scalarText?_eq_some_iff]

mutual

-- What holds of all that is no list, and of a list if it holds of its items, holds of all values.
theorem json_induction {P : Json → Prop}
    (hother : ∀ value, (∀ items, value ≠ .array items) → P value)
    (harray : ∀ items, (∀ value ∈ items, P value) → P (.array items)) (value : Json) : P value := by
  cases value with
  | array items => exact harray items (items_induction hother harray items)
  | null | bool b | number n | string s | object members => exact hother _ (by simp)

theorem items_induction {P : Json → Prop}
    (hother : ∀ value, (∀ items, value ≠ .array items) → P value)
    (harray : ∀ items, (∀ value ∈ items, P value) → P (.array items)) (items : List Json) :
    ∀ value ∈ items, P value := by
  cases items with
  | nil => exact fun value hvalue => absurd hvalue List.not_mem_nil
  | cons first rest =>
      intro value hvalue
      rcases List.mem_cons.mp hvalue with heq | hrest
      · rw [heq]
        exact json_induction hother harray first
      · exact items_induction hother harray rest value hrest

end

-- A list starts with a tag or it has no parts at all.
theorem exists_markupParts (items : List Json) :
    (∀ tag, items.head? ≠ some (.string tag)) ∨
      ∃ tag members children first, MarkupParts tag items members children first := by
  by_cases h : ∃ tag, items.head? = some (.string tag)
  · obtain ⟨tag, htag⟩ := h
    obtain ⟨rest, rfl⟩ := List.head?_eq_some_iff.mp htag
    right
    by_cases hattrs : ∃ members, rest.head? = some (.object members)
    · obtain ⟨members, hmembers⟩ := hattrs
      obtain ⟨children, rfl⟩ := List.head?_eq_some_iff.mp hmembers
      exact ⟨tag, members, children, 2, .attributed members children⟩
    · exact ⟨tag, [], rest, 1, .plain rest fun members hmembers => hattrs ⟨members, hmembers⟩⟩
  · exact Or.inl fun tag htag => h ⟨tag, htag⟩

section Reading

variable {path : Path} {tag : String} {items children : List Json} {members : Members} {first : ℕ}

theorem MarkupParts.mem_items (parts : MarkupParts tag items members children first) :
    ∀ child ∈ children, child ∈ items := by
  intro child hchild
  cases parts with
  | attributed => exact List.mem_cons_of_mem _ (List.mem_cons_of_mem _ hchild)
  | plain => exact List.mem_cons_of_mem _ hchild

-- A list with a tag is read part by part.
theorem MarkupParts.markupElement_eq (parts : MarkupParts tag items members children first) :
    markupElement path (.array items) = (do
      let attrs ← markupAttrs path members
      return { tag, attrs, children := ← markupChildren path first children }) := by
  cases parts with
  | attributed => rw [markupElement]
  | plain children hplain =>
      rw [markupElement]
      · rfl
      · rintro members rest rfl
        exact hplain members rfl

theorem markupElement_eq_noTag (h : ∀ tag, items.head? ≠ some (.string tag)) :
    markupElement path (.array items) = .error (.malformedMarkup path .noTag) := by
  rw [markupElement]
  · rintro tag members rest rfl
    exact h tag rfl
  · rintro tag rest rfl
    exact h tag rfl

theorem markupElement_eq_notList {value : Json} (h : ∀ items, value ≠ .array items) :
    markupElement path value = .error (.malformedMarkup path .notList) := by
  rw [markupElement]
  · exact fun tag members children => h _
  · exact fun tag children => h _
  · exact h

theorem markupAttrs_cons_ok {name s : String} {value : Json} (h : TextOf value s) :
    markupAttrs path ((name, value) :: members) = (do
      let attrs ← markupAttrs path members
      return (name, s) :: attrs) := by
  rw [markupAttrs, scalarText?_eq_some_iff.mpr h]

theorem markupAttrs_cons_error {name : String} {value : Json} (h : ¬ IsText value) :
    markupAttrs path ((name, value) :: members) =
      .error (.malformedMarkup path (.attribute name)) := by
  rw [markupAttrs, scalarText?_eq_none_iff.mpr h]

theorem TextOf.eq {value : Json} {s t : String} (h : TextOf value s) (ht : TextOf value t) :
    s = t := by
  rw [← scalarText?_eq_some_iff] at h ht
  exact Option.some.inj (h.symm.trans ht)

theorem markupAttrs_eq_ok {attrs : List (String × String)} :
    markupAttrs path members = .ok attrs ↔
      List.Forall₂ (fun m a => a.1 = m.1 ∧ TextOf m.2 a.2) members attrs := by
  induction members generalizing attrs with
  | nil =>
      rw [List.forall₂_nil_left_iff, markupAttrs, Except.ok.injEq, eq_comm]
  | cons m rest ih =>
      obtain ⟨name, value⟩ := m
      rw [List.forall₂_cons_left_iff]
      by_cases h : IsText value
      · obtain ⟨s, hs⟩ := h
        rw [markupAttrs_cons_ok hs, bind_eq_ok]
        constructor
        · rintro ⟨others, hothers, ⟨⟩⟩
          exact ⟨(name, s), others, ⟨rfl, hs⟩, ih.mp hothers, rfl⟩
        · rintro ⟨⟨_, t⟩, others, ⟨rfl, ht⟩, hothers, rfl⟩
          refine ⟨others, ih.mpr hothers, ?_⟩
          rw [hs.eq ht]
          rfl
      · rw [markupAttrs_cons_error h]
        constructor
        · intro herror
          cases herror
        · rintro ⟨⟨_, t⟩, others, ⟨-, ht⟩, -, -⟩
          exact absurd ⟨t, ht⟩ h

theorem markupAttrs_eq_error {problem : Problem} :
    markupAttrs path members = .error problem ↔
      ∃ front name value back, members = front ++ (name, value) :: back ∧
        (∀ m ∈ front, IsText m.2) ∧ ¬ IsText value ∧
        problem = .malformedMarkup path (.attribute name) := by
  induction members with
  | nil => simp [markupAttrs]
  | cons m rest ih =>
      obtain ⟨name, value⟩ := m
      by_cases h : IsText value
      · obtain ⟨s, hs⟩ := h
        rw [markupAttrs_cons_ok hs, bind_eq_error, ih]
        constructor
        · rintro (⟨front, other, found, back, rfl, hfront, hfound⟩ | ⟨attrs, -, ⟨⟩⟩)
          refine ⟨(name, value) :: front, other, found, back, rfl, ?_, hfound⟩
          exact List.forall_mem_cons.mpr ⟨⟨s, hs⟩, hfront⟩
        · rintro ⟨front, other, found, back, hcut, hfront, hfound, hproblem⟩
          cases front with
          | nil =>
              cases hcut
              exact absurd ⟨s, hs⟩ hfound
          | cons m front =>
              obtain ⟨-, rfl⟩ := List.cons.inj hcut
              exact Or.inl ⟨front, other, found, back, rfl,
                (List.forall_mem_cons.mp hfront).2, hfound, hproblem⟩
      · rw [markupAttrs_cons_error h, Except.error.injEq]
        constructor
        · rintro rfl
          exact ⟨[], name, value, rest, rfl, by simp, h, rfl⟩
        · rintro ⟨front, other, found, back, hcut, hfront, -, rfl⟩
          cases front with
          | nil =>
              cases hcut
              rfl
          | cons m front =>
              obtain ⟨rfl, -⟩ := List.cons.inj hcut
              exact absurd (hfront _ List.mem_cons_self) h

theorem markupChildren_eq_ok {nodes : List Node}
    (h : ∀ child ∈ children, ∀ path i n, markupChild path i child = .ok n ↔ Denotes child n) :
    markupChildren path first children = .ok nodes ↔ List.Forall₂ Denotes children nodes := by
  induction children generalizing first nodes with
  | nil => rw [List.forall₂_nil_left_iff, markupChildren, Except.ok.injEq, eq_comm]
  | cons child rest ih =>
      obtain ⟨hchild, hrest⟩ := List.forall_mem_cons.mp h
      rw [markupChildren, bind_eq_ok, List.forall₂_cons_left_iff]
      constructor
      · rintro ⟨node, hnode, h⟩
        obtain ⟨others, hothers, ⟨⟩⟩ := bind_eq_ok.mp h
        exact ⟨node, others, (hchild _ _ _).mp hnode, (ih hrest).mp hothers, rfl⟩
      · rintro ⟨node, others, hnode, hothers, rfl⟩
        exact ⟨node, (hchild _ _ _).mpr hnode,
          bind_eq_ok.mpr ⟨others, (ih hrest).mpr hothers, rfl⟩⟩

-- The children are gone through until one cannot be read.
theorem markupChildren_eq_error {problem : Problem}
    (h : ∀ child ∈ children, ∀ path i n, markupChild path i child = .ok n ↔ Denotes child n) :
    markupChildren path first children = .error problem ↔
      ∃ front child back, children = front ++ child :: back ∧
        (∀ c ∈ front, ∃ n, Denotes c n) ∧
        markupChild path (first + front.length) child = .error problem := by
  induction children generalizing first with
  | nil => simp [markupChildren]
  | cons child rest ih =>
      obtain ⟨hchild, hrest⟩ := List.forall_mem_cons.mp h
      have hothers : ∀ node : Node, (do
          return node :: (← markupChildren path (first + 1) rest) : Except Problem (List Node)) =
            .error problem ↔ markupChildren path (first + 1) rest = .error problem := by
        intro node
        rw [bind_eq_error]
        constructor
        · rintro (herror | ⟨others, -, ⟨⟩⟩)
          exact herror
        · exact Or.inl
      rw [markupChildren, bind_eq_error]
      simp only [hothers, ih hrest, hchild]
      constructor
      · rintro (herror | ⟨node, hnode, front, found, back, rfl, hfront, herror⟩)
        · exact ⟨[], child, rest, rfl, by simp, herror⟩
        · refine ⟨child :: front, found, back, rfl,
            List.forall_mem_cons.mpr ⟨⟨node, hnode⟩, hfront⟩, ?_⟩
          rwa [List.length_cons, Nat.add_comm front.length, ← Nat.add_assoc]
      · rintro ⟨front, found, back, hcut, hfront, herror⟩
        cases front with
        | nil =>
            cases hcut
            exact Or.inl herror
        | cons c front =>
            obtain ⟨rfl, rfl⟩ := List.cons.inj hcut
            obtain ⟨⟨node, hnode⟩, hfront⟩ := List.forall_mem_cons.mp hfront
            refine Or.inr ⟨node, hnode, front, found, back, rfl, hfront, ?_⟩
            rwa [List.length_cons, Nat.add_comm front.length, ← Nat.add_assoc] at herror

end Reading

theorem exists_forall₂_iff {α β : Type} {R : α → β → Prop} {as : List α} :
    (∃ bs, List.Forall₂ R as bs) ↔ ∀ a ∈ as, ∃ b, R a b := by
  induction as with
  | nil => simp
  | cons a rest ih =>
      rw [List.forall_mem_cons, ← ih]
      constructor
      · rintro ⟨bs, h⟩
        obtain ⟨b, others, hb, hothers, rfl⟩ := List.forall₂_cons_left_iff.mp h
        exact ⟨⟨b, hb⟩, others, hothers⟩
      · rintro ⟨⟨b, hb⟩, others, hothers⟩
        exact ⟨b :: others, .cons hb hothers⟩

theorem exists_attrs_iff {members : Members} :
    (∃ attrs : List (String × String),
      List.Forall₂ (fun m a => a.1 = m.1 ∧ TextOf m.2 a.2) members attrs) ↔
      ∀ m ∈ members, IsText m.2 := by
  rw [exists_forall₂_iff]
  apply forall₂_congr
  intro m _
  constructor
  · rintro ⟨⟨_, s⟩, -, hs⟩
    exact ⟨s, hs⟩
  · rintro ⟨s, hs⟩
    exact ⟨(m.1, s), rfl, hs⟩

theorem not_isText_array (items : List Json) : ¬ IsText (.array items) := by
  rintro ⟨s, ⟨⟩⟩

-- Something stands for a value if it is a text or markup.
theorem exists_denotes_iff (value : Json) :
    (∃ n, Denotes value n) ↔ IsText value ∨ IsMarkup value := by
  induction value using json_induction with
  | hother value hvalue =>
      constructor
      · rintro ⟨n, h⟩
        cases h with
        | text h => exact Or.inl ⟨_, h⟩
        | node parts => exact absurd rfl (hvalue _)
      · rintro (⟨s, hs⟩ | h)
        · exact ⟨_, .text hs⟩
        · cases h
          exact absurd rfl (hvalue _)
  | harray items ih =>
      constructor
      · rintro ⟨n, h⟩
        cases h with
        | text h => cases h
        | node parts attributes rest =>
            right
            refine .node parts (exists_attrs_iff.mp ⟨_, attributes⟩) ?_
            intro child hchild htext
            have hdenotes := exists_forall₂_iff.mp ⟨_, rest⟩ child hchild
            exact ((ih child (parts.mem_items child hchild)).mp hdenotes).resolve_left htext
      · rintro (h | h)
        · exact absurd h (not_isText_array items)
        · cases h with
          | node parts attrs rest =>
              obtain ⟨as, has⟩ := exists_attrs_iff.mpr attrs
              obtain ⟨nodes, hnodes⟩ := exists_forall₂_iff.mpr fun child hchild =>
                (ih child (parts.mem_items child hchild)).mpr
                  (or_iff_not_imp_left.mpr (rest child hchild))
              exact ⟨_, .node parts has hnodes⟩

-- How a value is read as markup.
structure ReadsForm (value : Json) : Prop where
  ok_iff : ∀ path e, markupElement path value = .ok e ↔ Denotes value e.toNode
  error_iff : ∀ path problem, markupElement path value = .error problem ↔
    ∃ p fault, FirstFault path value p fault ∧ problem = .malformedMarkup p fault

theorem ReadsForm.markupChild_eq_ok {value : Json} (h : ReadsForm value) (path : Path) (i : ℕ)
    (n : Node) : markupChild path i value = .ok n ↔ Denotes value n := by
  cases value with
  | array items =>
      rw [markupChild, bind_eq_ok]
      constructor
      · rintro ⟨e, he, ⟨⟩⟩
        exact (h.ok_iff _ e).mp he
      · intro hn
        cases hn with
        | text h => cases h
        | @node tag _ _ _ _ attrs nodes parts attributes rest =>
            exact ⟨⟨tag, attrs, nodes⟩, (h.ok_iff _ _).mpr (.node parts attributes rest), rfl⟩
  | string s =>
      rw [markupChild, Except.ok.injEq]
      constructor
      · rintro rfl
        exact .text (.string s)
      · rintro ⟨⟨⟩⟩
        rfl
  | number m =>
      rw [markupChild, Except.ok.injEq]
      constructor
      · rintro rfl
        exact .text (.number m)
      · rintro ⟨⟨⟩⟩
        rfl
  | null | bool b | object members =>
      rw [markupChild]
      · constructor
        · intro herror
          cases herror
        · rintro ⟨⟨⟩⟩
      all_goals simp

theorem ReadsForm.markupChild_eq_error {value : Json} (h : ReadsForm value) (path : Path) (i : ℕ)
    (problem : Problem) : markupChild path i value = .error problem ↔
      (¬ IsText value ∧ (∀ inner, value ≠ .array inner) ∧
        problem = .malformedMarkup path .child) ∨
      ∃ inner p fault, value = .array inner ∧
        FirstFault (path ++ [.item i]) (.array inner) p fault ∧
        problem = .malformedMarkup p fault := by
  have hnone : scalarText? value = none → ¬ IsText value := scalarText?_eq_none_iff.mp
  cases value with
  | array items =>
      have hok : ∀ e : Element, (pure e.toNode : Except Problem Node) ≠ .error problem := nofun
      rw [markupChild, bind_eq_error]
      simp only [hok, and_false, exists_false, or_false, h.error_iff]
      simp
  | string s =>
      have htext : IsText (.string s) := ⟨s, .string s⟩
      rw [markupChild]
      simp [htext]
  | number n =>
      have htext : IsText (.number n) := ⟨n.text, .number n⟩
      rw [markupChild]
      simp [htext]
  | null | bool b | object members =>
      rw [markupChild]
      · simp [hnone rfl, eq_comm]
      all_goals simp

section Parts

variable {path : Path} {tag : String} {items children : List Json} {members : Members} {first : ℕ}

theorem MarkupParts.head?_eq (parts : MarkupParts tag items members children first) :
    items.head? = some (.string tag) := by
  cases parts <;> rfl

theorem MarkupParts.eq_ok_iff (parts : MarkupParts tag items members children first)
    (h : ∀ item ∈ items, ReadsForm item) (e : Element) :
    markupElement path (.array items) = .ok e ↔ e.tag = tag ∧
      List.Forall₂ (fun m a => a.1 = m.1 ∧ TextOf m.2 a.2) members e.attrs ∧
      List.Forall₂ Denotes children e.children := by
  have hchildren : ∀ child ∈ children, ∀ path i n,
      markupChild path i child = .ok n ↔ Denotes child n :=
    fun child hchild => (h child (parts.mem_items child hchild)).markupChild_eq_ok
  rw [parts.markupElement_eq, bind_eq_ok]
  simp only [bind_eq_ok, markupAttrs_eq_ok, markupChildren_eq_ok hchildren]
  constructor
  · rintro ⟨attrs, hattrs, nodes, hnodes, ⟨⟩⟩
    exact ⟨rfl, hattrs, hnodes⟩
  · rintro ⟨rfl, hattrs, hnodes⟩
    exact ⟨e.attrs, hattrs, e.children, hnodes, rfl⟩

theorem MarkupParts.eq_error_iff (parts : MarkupParts tag items members children first)
    (h : ∀ item ∈ items, ReadsForm item) (problem : Problem) :
    markupElement path (.array items) = .error problem ↔
      (∃ front name value back, members = front ++ (name, value) :: back ∧
        (∀ m ∈ front, IsText m.2) ∧ ¬ IsText value ∧
        problem = .malformedMarkup path (.attribute name)) ∨
      (∀ m ∈ members, IsText m.2) ∧ ∃ front child back, children = front ++ child :: back ∧
        (∀ c ∈ front, IsText c ∨ IsMarkup c) ∧
        markupChild path (first + front.length) child = .error problem := by
  have hchildren : ∀ child ∈ children, ∀ path i n,
      markupChild path i child = .ok n ↔ Denotes child n :=
    fun child hchild => (h child (parts.mem_items child hchild)).markupChild_eq_ok
  have hrest : ∀ attrs : List (String × String), (do
      return { tag, attrs, children := ← markupChildren path first children } :
        Except Problem Element) = .error problem ↔
      markupChildren path first children = .error problem := by
    intro attrs
    rw [bind_eq_error]
    constructor
    · rintro (herror | ⟨nodes, -, ⟨⟩⟩)
      exact herror
    · exact Or.inl
  rw [parts.markupElement_eq, bind_eq_error]
  simp only [hrest, markupAttrs_eq_ok, markupAttrs_eq_error, exists_and_right, exists_attrs_iff,
    markupChildren_eq_error hchildren, exists_denotes_iff]

end Parts

theorem readsForm_other {value : Json} (hvalue : ∀ items, value ≠ .array items) :
    ReadsForm value where
  ok_iff path e := by
    rw [markupElement_eq_notList hvalue]
    constructor
    · intro herror
      cases herror
    · intro h
      cases h
      exact absurd rfl (hvalue _)
  error_iff path problem := by
    rw [markupElement_eq_notList hvalue, Except.error.injEq]
    constructor
    · rintro rfl
      exact ⟨path, .notList, .notList hvalue, rfl⟩
    · rintro ⟨p, fault, h, rfl⟩
      cases h with
      | notList => rfl
      | noTag | attr | child | inner => exact absurd rfl (hvalue _)

theorem readsForm_array {items : List Json} (h : ∀ item ∈ items, ReadsForm item) :
    ReadsForm (.array items) where
  ok_iff path e := by
    constructor
    · intro he
      rcases exists_markupParts items with hnone | ⟨tag, members, children, first, parts⟩
      · rw [markupElement_eq_noTag hnone] at he
        cases he
      · obtain ⟨rfl, hattrs, hnodes⟩ := (parts.eq_ok_iff h e).mp he
        exact .node parts hattrs hnodes
    · intro hdenotes
      cases hdenotes with
      | node parts attributes rest => exact (parts.eq_ok_iff h e).mpr ⟨rfl, attributes, rest⟩
  error_iff path problem := by
    constructor
    · intro herror
      rcases exists_markupParts items with hnone | ⟨tag, members, children, first, parts⟩
      · rw [markupElement_eq_noTag hnone] at herror
        cases herror
        exact ⟨path, .noTag, .noTag hnone, rfl⟩
      · rcases (parts.eq_error_iff h problem).mp herror with
          ⟨front, name, value, back, rfl, hfront, hvalue, rfl⟩ |
          ⟨hattrs, front, child, back, rfl, hfront, hchild⟩
        · exact ⟨path, .attribute name, .attr parts hfront hvalue, rfl⟩
        · have hmem := parts.mem_items child (List.mem_append_right _ List.mem_cons_self)
          rcases ((h child hmem).markupChild_eq_error _ _ _).mp hchild with
            ⟨htext, hlist, rfl⟩ | ⟨inner, p, fault, rfl, hinner, rfl⟩
          · exact ⟨path, .child, .child parts hattrs hfront htext hlist, rfl⟩
          · exact ⟨p, fault, .inner parts hattrs hfront hinner, rfl⟩
    · rintro ⟨p, fault, hfault, rfl⟩
      cases hfault with
      | notList hlist => exact absurd rfl (hlist items)
      | noTag hnone => exact markupElement_eq_noTag hnone
      | attr parts attrs hvalue =>
          exact (parts.eq_error_iff h _).mpr (Or.inl ⟨_, _, _, _, rfl, attrs, hvalue, rfl⟩)
      | child parts attrs rest htext hlist =>
          have hmem := parts.mem_items _ (List.mem_append_right _ List.mem_cons_self)
          refine (parts.eq_error_iff h _).mpr (Or.inr ⟨attrs, _, _, _, rfl, rest, ?_⟩)
          exact ((h _ hmem).markupChild_eq_error _ _ _).mpr (Or.inl ⟨htext, hlist, rfl⟩)
      | inner parts attrs rest hinner =>
          have hmem := parts.mem_items _ (List.mem_append_right _ List.mem_cons_self)
          refine (parts.eq_error_iff h _).mpr (Or.inr ⟨attrs, _, _, _, rfl, rest, ?_⟩)
          exact ((h _ hmem).markupChild_eq_error _ _ _).mpr
            (Or.inr ⟨_, _, _, rfl, hinner, rfl⟩)

theorem readsForm (value : Json) : ReadsForm value := by
  induction value using json_induction with
  | hother value hvalue => exact readsForm_other hvalue
  | harray items ih => exact readsForm_array ih

-- A value is read as an element if and only if it is markup, and then the element has all of it.
-- What is reported otherwise is the first fault, under the path of the list that it is in.
theorem markupElement_reads_form (path : Path) (value : Json) :
    ((∃ e, markupElement path value = .ok e) ↔ IsMarkup value) ∧
    (∀ e, markupElement path value = .ok e ↔ Denotes value e.toNode) ∧
    (∀ problem, markupElement path value = .error problem ↔
      ∃ p fault, FirstFault path value p fault ∧ problem = .malformedMarkup p fault) ∧
    ∀ p fault, (Problem.malformedMarkup p fault).kind.code = "E201" ∧
      (Problem.malformedMarkup p fault).message = "malformed rich text in " ++ p.quoted := by
  have h := readsForm value
  refine ⟨?_, h.ok_iff path, h.error_iff path, fun p fault => ⟨rfl, rfl⟩⟩
  simp only [h.ok_iff]
  constructor
  · rintro ⟨e, he⟩
    have hform := (exists_denotes_iff value).mp ⟨_, he⟩
    cases he with
    | node parts => exact hform.resolve_left (not_isText_array _)
  · intro hmarkup
    obtain ⟨n, hn⟩ := (exists_denotes_iff value).mpr (Or.inr hmarkup)
    cases hmarkup
    cases hn with
    | text h => cases h
    | @node tag _ _ _ _ attrs nodes parts attributes rest =>
        exact ⟨⟨tag, attrs, nodes⟩, .node parts attributes rest⟩

end TimingDiagram.Document
