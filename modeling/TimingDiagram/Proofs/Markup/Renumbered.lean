import Mathlib
import TimingDiagram.Markup.Element

namespace TimingDiagram

-- Two attributes that are equal, or two ids that are equal but for the number they end on.
def SameButNumber (i j : ℕ) (a b : String × String) : Prop :=
  a.1 = b.1 ∧
    (a.2 = b.2 ∨
      a.1 = "id" ∧ ∃ front : String, a.2 = s!"{front}_{i}" ∧ b.2 = s!"{front}_{j}")

-- Trees with the same elements, texts and raw markup in the same places, and with the same
-- attributes but for the numbers of their ids.
inductive Renumbered (i j : ℕ) : List Node → List Node → Prop
  | nil : Renumbered i j [] []
  | text (s : String) {rest rest' : List Node} (hrest : Renumbered i j rest rest') :
      Renumbered i j (.text s :: rest) (.text s :: rest')
  | raw (markup : String) {rest rest' : List Node} (hrest : Renumbered i j rest rest') :
      Renumbered i j (.raw markup :: rest) (.raw markup :: rest')
  | element (tag : String) {attrs attrs' : List (String × String)}
      {children children' rest rest' : List Node}
      (hattrs : List.Forall₂ (SameButNumber i j) attrs attrs')
      (hchildren : Renumbered i j children children') (hrest : Renumbered i j rest rest') :
      Renumbered i j (.element tag attrs children :: rest) (.element tag attrs' children' :: rest')

namespace SameButNumber

variable {i j : ℕ}

theorem refl (a : String × String) : SameButNumber i j a a := ⟨rfl, Or.inl rfl⟩

theorem id (front : String) :
    SameButNumber i j ("id", s!"{front}_{i}") ("id", s!"{front}_{j}") :=
  ⟨rfl, Or.inr ⟨rfl, front, rfl, rfl⟩⟩

theorem forall_refl (attrs : List (String × String)) :
    List.Forall₂ (SameButNumber i j) attrs attrs :=
  List.forall₂_same.mpr fun a _ => refl a

end SameButNumber

namespace Renumbered

variable {i j : ℕ}

theorem refl : (nodes : List Node) → Renumbered i j nodes nodes
  | [] => .nil
  | .text s :: rest => .text s (refl rest)
  | .raw markup :: rest => .raw markup (refl rest)
  | .element tag attrs children :: rest =>
      .element tag (SameButNumber.forall_refl attrs) (refl children) (refl rest)

theorem append {front front' back back' : List Node} (hfront : Renumbered i j front front')
    (hback : Renumbered i j back back') : Renumbered i j (front ++ back) (front' ++ back') := by
  induction hfront with
  | nil => exact hback
  | text s _ ih => exact .text s ih
  | raw markup _ ih => exact .raw markup ih
  | element tag hattrs hchildren _ _ ih => exact .element tag hattrs hchildren ih

theorem flatMap {α : Type} {draw draw' : α → List Node}
    (h : ∀ a, Renumbered i j (draw a) (draw' a)) (items : List α) :
    Renumbered i j (items.flatMap draw) (items.flatMap draw') := by
  induction items with
  | nil => exact .nil
  | cons a rest ih =>
      rw [List.flatMap_cons, List.flatMap_cons]
      exact (h a).append ih

theorem map {α : Type} {draw draw' : α → Node} (h : ∀ a, Renumbered i j [draw a] [draw' a])
    (items : List α) : Renumbered i j (items.map draw) (items.map draw') := by
  rw [List.map_eq_flatMap, List.map_eq_flatMap]
  exact flatMap h items

-- An element whose id comes first among its attributes.
theorem numbered (tag front : String) (attrs : List (String × String))
    {children children' : List Node} (h : Renumbered i j children children') :
    Renumbered i j [.element tag (("id", s!"{front}_{i}") :: attrs) children]
      [.element tag (("id", s!"{front}_{j}") :: attrs) children'] :=
  .element tag (.cons (SameButNumber.id front) (SameButNumber.forall_refl attrs)) h .nil

end Renumbered

end TimingDiagram
