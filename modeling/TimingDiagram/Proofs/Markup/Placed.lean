import TimingDiagram.Proofs.Markup.DocumentOrder

namespace TimingDiagram

-- An element where it stands in a tree, with the id of the element around it.
structure Placed where
  around : Option String
  element : Element

def Placed.id? (p : Placed) : Option String := p.element.attr? "id"

mutual

-- The elements of a tree in document order.
def Node.placed (around : Option String) : Node → List Placed
  | .element tag attrs children => ⟨around, tag, attrs, children⟩ ::
      placedIn (attrs.lookup "id") children
  | .text _ | .raw _ => []

def placedIn (around : Option String) : List Node → List Placed
  | [] => []
  | n :: rest => n.placed around ++ placedIn around rest

end

mutual

-- The ids of a tree in document order.
def Node.ids : Node → List String
  | .element _ attrs children => (attrs.lookup "id").toList ++ idsIn children
  | .text _ | .raw _ => []

def idsIn : List Node → List String
  | [] => []
  | n :: rest => n.ids ++ idsIn rest

end

attribute [simp] Node.ids idsIn

def Element.placed (e : Element) : List Placed := placedIn none [e.toNode]

theorem placedIn_append (around : Option String) (front back : List Node) :
    placedIn around (front ++ back) = placedIn around front ++ placedIn around back := by
  induction front with
  | nil => rfl
  | cons n rest ih => rw [List.cons_append, placedIn, placedIn, ih, List.append_assoc]

theorem idsIn_append (front back : List Node) :
    idsIn (front ++ back) = idsIn front ++ idsIn back := by
  induction front with
  | nil => rfl
  | cons n rest ih => rw [List.cons_append, idsIn, idsIn, ih, List.append_assoc]

theorem idsIn_eq_flatMap (nodes : List Node) : idsIn nodes = nodes.flatMap Node.ids := by
  induction nodes with
  | nil => rfl
  | cons n rest ih => rw [idsIn, ih, List.flatMap_cons]

mutual

theorem Node.filterMap_placed (around : Option String) (n : Node) :
    (n.placed around).filterMap Placed.id? = n.ids := by
  cases n with
  | element tag attrs children =>
      have hchildren := filterMap_placedIn (attrs.lookup "id") children
      rw [Node.placed, Node.ids, List.filterMap_cons, hchildren]
      cases hid : attrs.lookup "id" <;> simp [Placed.id?, Element.attr?, hid]
  | text s | raw markup => rfl

theorem filterMap_placedIn (around : Option String) (nodes : List Node) :
    (placedIn around nodes).filterMap Placed.id? = idsIn nodes := by
  cases nodes with
  | nil => rfl
  | cons n rest =>
      rw [placedIn, idsIn, List.filterMap_append, n.filterMap_placed, filterMap_placedIn]

end

theorem idsIn_flatMap {α : Type} (draw : α → List Node) (items : List α) :
    idsIn (items.flatMap draw) = items.flatMap fun a => idsIn (draw a) := by
  induction items with
  | nil => rfl
  | cons a rest ih => rw [List.flatMap_cons, idsIn_append, ih, List.flatMap_cons]

theorem idsIn_map {α : Type} (draw : α → Node) (items : List α) :
    idsIn (items.map draw) = items.flatMap fun a => (draw a).ids := by
  rw [idsIn_eq_flatMap, List.flatMap_map]

theorem idsIn_eq_nil {nodes : List Node} (h : ∀ n ∈ nodes, n.ids = []) : idsIn nodes = [] := by
  rw [idsIn_eq_flatMap]
  exact List.flatMap_eq_nil_iff.mpr h

section Exempt

variable (exempt : Placed → Prop) [DecidablePred exempt] (around : Option String)

-- The ids in a list of trees but for those of exempt elements.
def idsBut (nodes : List Node) : List String :=
  ((placedIn around nodes).filter fun p => ¬ exempt p).filterMap Placed.id?

theorem idsBut_append (front back : List Node) :
    idsBut exempt around (front ++ back) =
      idsBut exempt around front ++ idsBut exempt around back := by
  rw [idsBut, placedIn_append, List.filter_append, List.filterMap_append]
  rfl

theorem idsBut_sublist (nodes : List Node) :
    (idsBut exempt around nodes).Sublist (idsIn nodes) := by
  rw [← filterMap_placedIn around]
  exact List.filter_sublist.filterMap Placed.id?

section Bounds

variable {exempt around} {front back nodes : List Node} {ids fronts backs : List String}

theorem idsBut_sublist_of_eq (h : idsIn nodes = ids) : (idsBut exempt around nodes).Sublist ids :=
  h ▸ idsBut_sublist exempt around nodes

theorem idsBut_eq_nil_of_idsIn (h : idsIn nodes = []) : idsBut exempt around nodes = [] :=
  List.sublist_nil.mp (idsBut_sublist_of_eq h)

theorem idsBut_append_sublist (hfront : (idsBut exempt around front).Sublist fronts)
    (hback : (idsBut exempt around back).Sublist backs) :
    (idsBut exempt around (front ++ back)).Sublist (fronts ++ backs) := by
  rw [idsBut_append]
  exact hfront.append hback

end Bounds

theorem idsBut_element (tag : String) (attrs : List (String × String)) {children : List Node}
    {ids : List String} (h : (idsBut exempt (attrs.lookup "id") children).Sublist ids) :
    (idsBut exempt around [.element tag attrs children]).Sublist
      ((attrs.lookup "id").toList ++ ids) := by
  let own : Placed := ⟨around, tag, attrs, children⟩
  have hown : [own].filterMap Placed.id? = (attrs.lookup "id").toList := by
    have hid : own.id? = attrs.lookup "id" := rfl
    rw [List.filterMap_cons, hid, List.filterMap_nil]
    cases attrs.lookup "id" <;> rfl
  have hsplit : placedIn around [.element tag attrs children] =
      [own] ++ placedIn (attrs.lookup "id") children := by
    rw [placedIn, placedIn, List.append_nil]
    rfl
  rw [idsBut, hsplit, List.filter_append, List.filterMap_append, ← hown]
  exact (List.filter_sublist.filterMap Placed.id?).append h

theorem idsBut_eq_nil {nodes : List Node}
    (h : ∀ p ∈ placedIn around nodes, p.id?.isSome → exempt p) :
    idsBut exempt around nodes = [] := by
  rw [idsBut, List.filterMap_eq_nil_iff]
  intro p hp
  obtain ⟨hmem, hp⟩ := List.mem_filter.mp hp
  by_contra hid
  exact of_decide_eq_true hp (h p hmem (Option.ne_none_iff_isSome.mp hid))

variable {exempt around} {nodes : List Node}

theorem mem_idsBut {p : Placed} {id : String} (hp : p ∈ placedIn around nodes)
    (hid : p.id? = some id) (hexempt : ¬ exempt p) : id ∈ idsBut exempt around nodes :=
  List.mem_filterMap.mpr ⟨p, List.mem_filter.mpr ⟨hp, decide_eq_true hexempt⟩, hid⟩

-- If the ids but for those of exempt elements are distinct, one of two elements that share an id
-- is exempt.
theorem pairwise_of_nodup_idsBut (h : (idsBut exempt around nodes).Nodup) :
    (placedIn around nodes).Pairwise fun p q =>
      ∀ id, p.id? = some id → q.id? = some id → exempt p ∨ exempt q := by
  rw [idsBut, List.Nodup, List.pairwise_filterMap, List.pairwise_filter] at h
  refine h.imp ?_
  intro p q hpq id hp hq
  by_contra hexempt
  obtain ⟨hp', hq'⟩ := not_or.mp hexempt
  exact hpq (decide_eq_true hp') (decide_eq_true hq') id hp id hq rfl

end Exempt

mutual

-- The listing is the one that the search for an id goes through, whatever is around the elements.
theorem Node.map_element_placed (around : Option String) (n : Node) :
    (n.placed around).map Placed.element = Element.preorderOf n := by
  cases n with
  | element tag attrs children =>
      rw [Node.placed, Element.preorderOf, List.map_cons,
        map_element_placedIn (attrs.lookup "id") children]
  | text s | raw markup => rfl

theorem map_element_placedIn (around : Option String) (nodes : List Node) :
    (placedIn around nodes).map Placed.element = Element.preorderIn nodes := by
  cases nodes with
  | nil => rfl
  | cons n rest =>
      rw [placedIn, Element.preorderIn, List.map_append, n.map_element_placed,
        map_element_placedIn]

end

theorem Element.map_element_placed (e : Element) :
    e.placed.map Placed.element = e.descendants := by
  rw [descendants_eq_preorder, preorder, Element.placed, map_element_placedIn, preorderIn,
    preorderIn, List.append_nil]

end TimingDiagram
