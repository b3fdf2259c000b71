import Mathlib
import TimingDiagram.Markup.Element
import TimingDiagram.Proofs.Signal.Address

namespace TimingDiagram

-- In a list that is sorted strictly, what is found is the least member that passes.
theorem find?_eq_some_iff_of_pairwise {α : Type} [LinearOrder α] {xs : List α}
    (hsorted : xs.Pairwise (· < ·)) (test : α → Bool) (x : α) :
    xs.find? test = some x ↔ x ∈ xs ∧ test x ∧ ∀ y < x, y ∈ xs → ¬ test y := by
  rw [List.find?_eq_some_iff_append]
  constructor
  · rintro ⟨hx, front, back, rfl, hfront⟩
    refine ⟨by simp, hx, ?_⟩
    intro y hy hmem
    rw [List.pairwise_append, List.pairwise_cons] at hsorted
    rcases List.mem_append.mp hmem with hmem | hmem
    · simpa using hfront y hmem
    · rcases List.mem_cons.mp hmem with rfl | hmem
      · exact absurd hy (lt_irrefl y)
      · exact absurd hy (lt_asymm (hsorted.2.1.1 y hmem))
  · rintro ⟨hmem, hx, hleast⟩
    obtain ⟨front, back, rfl⟩ := List.append_of_mem hmem
    refine ⟨hx, front, back, rfl, ?_⟩
    intro y hy
    rw [List.pairwise_append] at hsorted
    have hlt : y < x := hsorted.2.2 y hy x List.mem_cons_self
    simpa using hleast y hlt (List.mem_append_left _ hy)

namespace Element

mutual

-- The elements of a tree in document order: an element stands in front of all that is below it.
def preorderOf : Node → List Element
  | .element tag attrs children => ⟨tag, attrs, children⟩ :: preorderIn children
  | .text _ | .raw _ => []

def preorderIn : List Node → List Element
  | [] => []
  | n :: rest => preorderOf n ++ preorderIn rest

end

def preorder (e : Element) : List Element := preorderOf e.toNode

theorem preorderIn_eq (nodes : List Node) :
    preorderIn nodes = (nodes.filterMap ofNode?).flatMap preorder := by
  induction nodes with
  | nil => rfl
  | cons n rest ih =>
      rw [preorderIn, ih]
      cases n <;> rfl

theorem preorder_eq (e : Element) : e.preorder = e :: e.childElements.flatMap preorder := by
  rw [childElements, ← preorderIn_eq]
  rfl

-- What is still to come of the walk is what is listed for each tree on the stack.
theorem descendantsFrom_eq (stack : List Element) :
    descendantsFrom stack = stack.flatMap preorder := by
  induction stack using descendantsFrom.induct with
  | case1 => rw [descendantsFrom, List.flatMap_nil]
  | case2 e stack ih =>
      rw [descendantsFrom, ih, List.flatMap_append, List.flatMap_cons, preorder_eq,
        List.cons_append]

theorem descendants_eq_preorder (e : Element) : e.descendants = e.preorder := by
  rw [descendants, descendantsFrom_eq, List.flatMap_singleton]

-- The element at an address, if the address leads to one. Texts and raw markup are counted among
-- the children, but nothing is at their addresses.
def at? (e : Element) : Address → Option Element
  | [] => some e
  | i :: path => (e.children[i]?.bind ofNode?).bind fun child => child.at? path

mutual

-- The addresses of the elements of a tree, an element before what is below it.
def addressesOf : Node → List Address
  | .element _ _ children => [] :: addressesAmong children
  | .text _ | .raw _ => []

def addressesAmong : List Node → List Address
  | [] => []
  | n :: rest => (addressesOf n).map (0 :: ·) ++ (addressesAmong rest).map Address.later

end

theorem ne_nil_of_mem_addressesAmong {nodes : List Node} {path : Address}
    (h : path ∈ addressesAmong nodes) : path ≠ [] := by
  induction nodes generalizing path with
  | nil => simp [addressesAmong] at h
  | cons n rest ih =>
      simp only [addressesAmong, List.mem_append, List.mem_map] at h
      obtain ⟨inner, -, rfl⟩ | ⟨behind, hbehind, rfl⟩ := h
      · exact List.cons_ne_nil 0 inner
      · exact Address.later_ne_nil (ih hbehind)

mutual

theorem pairwise_addressesOf (n : Node) : (addressesOf n).Pairwise (· < ·) := by
  cases n with
  | element tag attrs children =>
      rw [addressesOf, List.pairwise_cons]
      refine ⟨?_, pairwise_addressesAmong children⟩
      intro path hpath
      obtain ⟨i, more, rfl⟩ := List.exists_cons_of_ne_nil (ne_nil_of_mem_addressesAmong hpath)
      exact List.nil_lt_cons i more
  | text s | raw markup => exact List.Pairwise.nil

theorem pairwise_addressesAmong (nodes : List Node) : (addressesAmong nodes).Pairwise (· < ·) := by
  cases nodes with
  | nil => exact List.Pairwise.nil
  | cons n rest =>
      rw [addressesAmong, List.pairwise_append, List.pairwise_map, List.pairwise_map]
      refine ⟨?_, ?_, ?_⟩
      · exact (pairwise_addressesOf n).imp fun h => List.cons_lt_cons_iff.mpr (Or.inr ⟨rfl, h⟩)
      · exact (pairwise_addressesAmong rest).imp fun h => (Address.later_lt_later _ _).mpr h
      · intro path hpath other hother
        obtain ⟨inner, -, rfl⟩ := List.mem_map.mp hpath
        obtain ⟨behind, hbehind, rfl⟩ := List.mem_map.mp hother
        exact Address.zero_cons_lt_later inner (ne_nil_of_mem_addressesAmong hbehind)

end

section Siblings

variable (tag : String) (attrs : List (String × String)) (n : Node) (rest : List Node)

theorem at?_first (path : Address) :
    (Element.mk tag attrs (n :: rest)).at? (0 :: path) = (ofNode? n).bind (·.at? path) := rfl

theorem at?_later {path : Address} (h : path ≠ []) :
    (Element.mk tag attrs (n :: rest)).at? path.later = (Element.mk tag attrs rest).at? path := by
  obtain ⟨i, path, rfl⟩ := List.exists_cons_of_ne_nil h
  rfl

end Siblings

mutual

-- The addresses lead to the elements that are listed.
theorem map_at?_addressesOf (n : Node) :
    (addressesOf n).map (fun path => (ofNode? n).bind (·.at? path)) =
      (preorderOf n).map some := by
  cases n with
  | element tag attrs children =>
      rw [addressesOf, preorderOf, List.map_cons, List.map_cons,
        ← map_at?_addressesAmong tag attrs children]
      rfl
  | text s | raw markup => rfl

theorem map_at?_addressesAmong (tag : String) (attrs : List (String × String)) (nodes : List Node) :
    (addressesAmong nodes).map (Element.mk tag attrs nodes).at? = (preorderIn nodes).map some := by
  cases nodes with
  | nil => rfl
  | cons n rest =>
      rw [addressesAmong, preorderIn, List.map_append, List.map_append, List.map_map, List.map_map,
        ← map_at?_addressesOf n, ← map_at?_addressesAmong tag attrs rest]
      congr 1
      apply List.map_congr_left
      intro path hpath
      exact at?_later tag attrs n rest (ne_nil_of_mem_addressesAmong hpath)

end

mutual

theorem mem_addressesOf (n : Node) (path : Address) :
    path ∈ addressesOf n ↔ ((ofNode? n).bind (·.at? path)).isSome := by
  cases n with
  | element tag attrs children =>
      cases path with
      | nil => exact iff_of_true List.mem_cons_self rfl
      | cons i path =>
          rw [addressesOf, List.mem_cons, or_iff_right (List.cons_ne_nil i path)]
          exact (mem_addressesAmong tag attrs children (i :: path)).trans
            (and_iff_right (List.cons_ne_nil i path))
  | text s | raw markup => exact iff_of_false List.not_mem_nil Bool.false_ne_true

theorem mem_addressesAmong (tag : String) (attrs : List (String × String)) (nodes : List Node)
    (path : Address) :
    path ∈ addressesAmong nodes ↔ path ≠ [] ∧ ((Element.mk tag attrs nodes).at? path).isSome := by
  cases nodes with
  | nil => cases path <;> simp [addressesAmong, at?]
  | cons n rest =>
      have hfirst : ∀ inner, inner ∈ addressesOf n ↔
          ((Element.mk tag attrs (n :: rest)).at? (0 :: inner)).isSome := by
        intro inner
        rw [at?_first, mem_addressesOf n]
      simp only [addressesAmong, List.mem_append, List.mem_map, hfirst,
        mem_addressesAmong tag attrs rest]
      constructor
      · rintro (⟨inner, hinner, rfl⟩ | ⟨behind, ⟨hbehind, hsome⟩, rfl⟩)
        · exact ⟨List.cons_ne_nil 0 inner, hinner⟩
        · exact ⟨Address.later_ne_nil hbehind, (at?_later tag attrs n rest hbehind).symm ▸ hsome⟩
      · rintro ⟨hpath, hsome⟩
        obtain ⟨i, path, rfl⟩ := List.exists_cons_of_ne_nil hpath
        cases i with
        | zero => exact Or.inl ⟨path, hsome, rfl⟩
        | succ i => exact Or.inr ⟨i :: path, ⟨List.cons_ne_nil i path, hsome⟩, rfl⟩

end

-- The address of what is found is the first one that leads to an element with the id.
theorem map_findById? (e : Element) (id : String) :
    (e.findById? id).map some = ((addressesOf e.toNode).find? fun path =>
      (e.at? path).any (·.attr? "id" == some id)).map e.at? := by
  have hlisted : e.descendants.map some = (addressesOf e.toNode).map e.at? := by
    rw [descendants_eq_preorder]
    exact (map_at?_addressesOf e.toNode).symm
  have hfound := congrArg (List.find? fun d : Option Element => d.any (·.attr? "id" == some id))
    hlisted
  rw [List.find?_map, List.find?_map] at hfound
  exact hfound

section Search

variable (e : Element) (id : String)

theorem mem_addressesOf_toNode (path : Address) :
    path ∈ addressesOf e.toNode ↔ (e.at? path).isSome :=
  mem_addressesOf e.toNode path

theorem findById?_eq_some_iff (d : Element) :
    e.findById? id = some d ↔ ∃ path, e.at? path = some d ∧ d.attr? "id" = some id ∧
      ∀ other < path, ∀ before, e.at? other = some before → before.attr? "id" ≠ some id := by
  have hsorted := pairwise_addressesOf e.toNode
  rw [← (Option.map_injective (Option.some_injective Element)).eq_iff, map_findById?,
    Option.map_some, Option.map_eq_some_iff]
  apply exists_congr
  intro path
  rw [find?_eq_some_iff_of_pairwise hsorted, and_comm]
  apply and_congr_right
  intro hd
  simp only [mem_addressesOf_toNode, hd, Option.isSome_some, Option.any_some, beq_iff_eq, true_and]
  apply and_congr_right
  intro _
  apply forall₂_congr
  intro other _
  cases e.at? other with
  | none => simp
  | some before => simp

theorem findById?_eq_none_iff :
    e.findById? id = none ↔ ∀ path d, e.at? path = some d → d.attr? "id" ≠ some id := by
  rw [← Option.map_eq_none_iff (f := some), map_findById?, Option.map_eq_none_iff,
    List.find?_eq_none]
  apply forall_congr'
  intro path
  rw [mem_addressesOf_toNode]
  cases e.at? path with
  | none => simp
  | some d => simp

end Search

-- The walk with a stack lists every element of a tree once, in document order, and so the search
-- for an id finds the first element that has it.
theorem descendants_in_document_order (e : Element) :
    e.descendants = e.preorder ∧ e.preorder = e :: e.childElements.flatMap preorder ∧
    (∃ addresses : List Address, addresses.Pairwise (· < ·) ∧
      (∀ path, path ∈ addresses ↔ (e.at? path).isSome) ∧
      addresses.map e.at? = e.descendants.map some) ∧
    ∀ id : String,
      (∀ d, e.findById? id = some d ↔ ∃ path, e.at? path = some d ∧ d.attr? "id" = some id ∧
        ∀ other < path, ∀ before, e.at? other = some before → before.attr? "id" ≠ some id) ∧
      (e.findById? id = none ↔ ∀ path d, e.at? path = some d → d.attr? "id" ≠ some id) := by
  refine ⟨e.descendants_eq_preorder, e.preorder_eq, ?_, ?_⟩
  · refine ⟨addressesOf e.toNode, pairwise_addressesOf e.toNode, e.mem_addressesOf_toNode, ?_⟩
    rw [descendants_eq_preorder]
    exact map_at?_addressesOf e.toNode
  · intro id
    exact ⟨e.findById?_eq_some_iff id, e.findById?_eq_none_iff id⟩

end Element

end TimingDiagram
