import Mathlib
import TimingDiagram.Markup.Element

namespace TimingDiagram

namespace Node

def tag? : Node → Option String
  | .element tag _ _ => some tag
  | .text _ | .raw _ => none

def attr? (name : String) : Node → Option String
  | .element _ attrs _ => attrs.lookup name
  | .text _ | .raw _ => none

def id? : Node → Option String := attr? "id"

-- What an element is recognised by.
def heading (n : Node) : Option String × Option String := (n.tag?, n.id?)

end Node

namespace Element

-- The first of the children that carries an id.
def child? (e : Element) (id : String) : Option Element :=
  (e.children.find? fun n => n.id? == some id).bind ofNode?

-- What the ids on the way down lead to. Only children are looked at, so that an id which is used
-- again further inside does not get in the way.
def part? (e : Element) : List String → Option Element
  | [] => some e
  | id :: ids => (e.child? id).bind fun c => c.part? ids

def childIds (e : Element) : List String := e.children.filterMap Node.id?

theorem childIds_eq {e : Element} {tag : Option String} {ids : List String}
    (h : e.children.map Node.heading = ids.map fun id => (tag, some id)) : e.childIds = ids := by
  have hall : e.childIds = (e.children.map Node.heading).filterMap Prod.snd := by
    rw [List.filterMap_map]
    rfl
  rw [hall, h, List.filterMap_map]
  exact List.filterMap_some

theorem find?_eq_of_nodup {α β : Type} [DecidableEq β] {key : α → Option β} {xs : List α} {x : α}
    {k : β} (hnodup : (xs.filterMap key).Nodup) (hx : x ∈ xs) (hk : key x = some k) :
    xs.find? (fun y => key y == some k) = some x := by
  induction xs with
  | nil => exact absurd hx List.not_mem_nil
  | cons y rest ih =>
      by_cases hy : key y = some k
      · rw [List.find?_cons_of_pos (by simp [hy])]
        rw [List.filterMap_cons_some hy, List.nodup_cons] at hnodup
        rcases List.mem_cons.mp hx with rfl | hx
        · rfl
        · exact absurd (List.mem_filterMap.mpr ⟨x, hx, hk⟩) hnodup.1
      · rw [List.find?_cons_of_neg (by simp [hy])]
        have hrest : (rest.filterMap key).Nodup :=
          hnodup.sublist ((List.sublist_cons_self y rest).filterMap key)
        rcases List.mem_cons.mp hx with rfl | hx
        · exact absurd hk hy
        · exact ih hrest hx

-- Among children that do not share ids every child is found by its own.
theorem child?_eq {e : Element} {n : Node} {id : String} (hids : e.childIds.Nodup)
    (hmem : n ∈ e.children) (hid : n.id? = some id) : e.child? id = ofNode? n := by
  rw [child?, find?_eq_of_nodup hids hmem hid, Option.bind_some]

theorem part?_singleton (e : Element) (id : String) : e.part? [id] = e.child? id :=
  Option.bind_fun_some (e.child? id)

-- Puts the children that pass a test through a change.
def changeChildren (test : Node → Bool) (change : Element → Element) (e : Element) : Element :=
  { e with children := e.children.map fun n =>
      if test n then ((ofNode? n).map fun c => (change c).toNode).getD n else n }

-- Leaves out the children that pass a test.
def removeChildren (test : Node → Bool) (e : Element) : Element :=
  { e with children := e.children.filter fun n => !test n }

-- Puts what the ids on the way down lead to through a change.
def changePart (change : Element → Element) : List String → Element → Element
  | [], e => change e
  | id :: ids, e => e.changeChildren (fun n => n.id? == some id) (changePart change ids)

-- Where one child passes the test, it is the one that is changed.
theorem changeChildren_eq {test : Node → Bool} (change : Element → Element) {e c : Element}
    {front back : List Node} (he : e.children = front ++ c.toNode :: back)
    (hfront : ∀ n ∈ front, test n = false) (hc : test c.toNode = true)
    (hback : ∀ n ∈ back, test n = false) :
    e.changeChildren test change = { e with children := front ++ (change c).toNode :: back } := by
  have hkept : ∀ nodes : List Node, (∀ n ∈ nodes, test n = false) →
      nodes.map (fun n =>
        if test n then ((ofNode? n).map fun c => (change c).toNode).getD n else n) = nodes := by
    intro nodes h
    conv_rhs => rw [← List.map_id nodes]
    apply List.map_congr_left
    intro n hn
    rw [h n hn]
    rfl
  rw [changeChildren, he, List.map_append, List.map_cons, hkept front hfront, hkept back hback, hc]
  rfl

end Element

end TimingDiagram
