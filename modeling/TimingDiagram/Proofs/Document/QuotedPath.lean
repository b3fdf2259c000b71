import Mathlib
import TimingDiagram.Document.Problem
import TimingDiagram.Proofs.Basic

namespace TimingDiagram

-- A path can be read back if its names are words of letters only.
def Step.IsPlain : Step → Prop
  | .member name => ∀ c ∈ name.toList, c.isAlpha
  | .item _ => True

-- The character in front of a step that is not the first one.
def Step.mark : Step → Char
  | .member _ => '.'
  | .item _ => '['

-- What a step is written as, apart from its mark.
def Step.piece : Step → List Char
  | .member name => name.toList
  | .item i => Nat.toDigits 10 i ++ [']']

-- Reads one piece of a path: an index ends in a bracket, everything else is a name.
def Step.ofPiece? (piece : List Char) : Option Step :=
  match piece.getLast? with
  | some ']' => (String.ofList piece.dropLast).toNat?.map .item
  | _ => some (.member (String.ofList piece))

namespace Path

-- The marks of the steps stand between the pieces of a path.
def isSeparator (c : Char) : Bool := c == '.' || c == '['

-- Reads a path, piece by piece.
def ofText? (text : String) : Option Path :=
  (text.toList.splitOnP isSeparator).mapM Step.ofPiece?

-- What is quoted first in a text.
def firstQuoted (text : String) : String :=
  String.ofList (((text.toList.dropWhile (· ≠ '\x60')).drop 1).takeWhile (· ≠ '\x60'))

end Path

namespace Step

variable {s : Step}

theorem ofPiece?_piece (hs : s.IsPlain) : ofPiece? s.piece = some s := by
  cases s with
  | member name =>
      have hlast : name.toList.getLast? ≠ some ']' := by
        intro hlast
        have halpha := hs ']' (List.mem_of_getLast? hlast)
        cases halpha
      rw [ofPiece?, piece]
      split
      · rename_i heq
        exact absurd heq hlast
      · rw [String.ofList_toList]
  | item i =>
      rw [ofPiece?, piece, List.getLast?_concat, List.dropLast_concat,
        ← Nat.repr_eq_ofList_toDigits, Nat.toNat?_repr]
      rfl

-- Letters and digits stand neither between pieces nor around a path.
theorem not_isSeparator_of_isAlphanum {c : Char} (h : c.isAlphanum) :
    Path.isSeparator c = false ∧ c ≠ '\x60' := by
  constructor
  · rw [← Bool.not_eq_true]
    intro hseparator
    simp only [Path.isSeparator, Bool.or_eq_true, beq_iff_eq] at hseparator
    rcases hseparator with rfl | rfl <;> cases h
  · rintro rfl
    cases h

-- No piece has a character that stands between pieces or around a path.
theorem mem_piece (hs : s.IsPlain) : ∀ c ∈ s.piece, Path.isSeparator c = false ∧ c ≠ '\x60' := by
  intro c hc
  cases s with
  | member name => exact not_isSeparator_of_isAlphanum (by simp [Char.isAlphanum, hs c hc])
  | item i =>
      rcases List.mem_append.mp hc with hdigit | hbracket
      · have hisDigit : c.isDigit = true :=
          Nat.isDigit_of_mem_toDigits (by decide) (by decide) hdigit
        exact not_isSeparator_of_isAlphanum (by simp [Char.isAlphanum, hisDigit])
      · rw [List.mem_singleton.mp hbracket]
        decide

end Step

namespace Path

variable {path : Path} {name : String}

theorem toList_stepText (s : Step) : (stepText false s).toList = s.mark :: s.piece := by
  cases s with
  | member name => simp [stepText, Step.mark, Step.piece]
  | item i => simp [stepText, Step.mark, Step.piece, toString]

theorem toList_text (name : String) (rest : Path) :
    (text (.member name :: rest)).toList =
      (Step.member name).piece ++ rest.flatMap fun s => s.mark :: s.piece := by
  rw [text, stepText, if_pos rfl, String.toList_append]
  apply congrArg (name.toList ++ ·)
  induction rest with
  | nil => rfl
  | cons s rest ih =>
      rw [List.map_cons, String.join_cons, String.toList_append, ih, toList_stepText,
        List.flatMap_cons]

theorem splitOnP_pieces (front : List Char) (hfront : ∀ c ∈ front, isSeparator c = false)
    (rest : Path) (hrest : ∀ s ∈ rest, s.IsPlain) :
    (front ++ rest.flatMap fun s => s.mark :: s.piece).splitOnP isSeparator =
      front :: rest.map Step.piece := by
  induction rest generalizing front with
  | nil => rw [List.flatMap_nil, List.append_nil, List.splitOnP_eq_singleton hfront, List.map_nil]
  | cons s rest ih =>
      obtain ⟨hs, hrest⟩ := List.forall_mem_cons.mp hrest
      have hpieces := ih s.piece (fun c hc => (Step.mem_piece hs c hc).1) hrest
      have hmark : isSeparator s.mark = true := by cases s <;> rfl
      rw [List.flatMap_cons, List.cons_append,
        List.splitOnP_append_cons_of_forall_mem hfront _ hmark, hpieces, List.map_cons]

theorem mapM_ofPiece? (hpath : ∀ s ∈ path, s.IsPlain) :
    (path.map Step.piece).mapM Step.ofPiece? = some path := by
  induction path with
  | nil => rfl
  | cons s rest ih =>
      obtain ⟨hs, hrest⟩ := List.forall_mem_cons.mp hpath
      rw [List.map_cons, List.mapM_cons, Step.ofPiece?_piece hs, ih hrest]
      rfl

-- A path is read back from its text.
theorem ofText?_text (hpath : ∀ s ∈ Step.member name :: path, s.IsPlain) :
    ofText? (text (.member name :: path)) = some (.member name :: path) := by
  have hpieces := mapM_ofPiece? hpath
  obtain ⟨hname, hrest⟩ := List.forall_mem_cons.mp hpath
  rw [ofText?, toList_text,
    splitOnP_pieces _ (fun c hc => (Step.mem_piece hname c hc).1) path hrest]
  exact hpieces

theorem mem_text (hpath : ∀ s ∈ Step.member name :: path, s.IsPlain) :
    ∀ c ∈ (text (.member name :: path)).toList, c ≠ '\x60' := by
  intro c hc
  obtain ⟨hname, hrest⟩ := List.forall_mem_cons.mp hpath
  rw [toList_text, List.mem_append, List.mem_flatMap] at hc
  rcases hc with hc | ⟨s, hs, hc⟩
  · exact (Step.mem_piece hname c hc).2
  · rcases List.mem_cons.mp hc with rfl | hc
    · cases s <;> simp [Step.mark]
    · exact (Step.mem_piece (hrest s hs) c hc).2

theorem firstQuoted_append {front : String} (hfront : ∀ c ∈ front.toList, c ≠ '\x60')
    (hpath : ∀ c ∈ path.text.toList, c ≠ '\x60') (back : String) :
    firstQuoted (front ++ path.quoted ++ back) = path.text := by
  have htext : (front ++ path.quoted ++ back).toList =
      front.toList ++ '\x60' :: (path.text.toList ++ '\x60' :: back.toList) := by
    simp [quoted]
  rw [firstQuoted, htext, Text.dropWhile_append_eq (by simpa using hfront) (by simp),
    List.drop_one, List.tail_cons, Text.takeWhile_append_eq (by simpa using hpath) (by simp),
    String.ofList_toList]

end Path

namespace Problem

variable {problem : Problem} {path : Path}

-- The path is quoted at the front of the message, or behind some plain words.
theorem exists_message (hproblem : problem.path? = some path) :
    ∃ front back : String, (∀ c ∈ front.toList, c ≠ '\x60') ∧
      problem.message = front ++ path.quoted ++ back := by
  have hfront : ∀ back, problem.message = path.quoted ++ back → ∃ front back : String,
      (∀ c ∈ front.toList, c ≠ '\x60') ∧ problem.message = front ++ path.quoted ++ back := by
    intro back hmessage
    exact ⟨"", back, by simp, by rw [String.empty_append, hmessage]⟩
  cases problem with
  | unreadable | notObject | missingSignal | unsupportedDiagram => cases hproblem
  | malformedMarkup p fault =>
      cases hproblem
      have hmessage : (malformedMarkup path fault).message =
          "malformed rich text in " ++ path.quoted := rfl
      exact ⟨_, "", by simp, hmessage.trans String.append_empty.symm⟩
  | notPositive | scaleCapped | unsupportedSetting =>
      cases hproblem
      exact hfront _ rfl
  | wrongType | periodCapped | noLabels =>
      cases hproblem
      exact hfront _ String.append_assoc
  | malformedEdge | scaleIgnored | unknownConnector =>
      cases hproblem
      exact hfront _ (String.append_assoc.trans String.append_assoc)

theorem firstQuoted_message (hproblem : problem.path? = some path)
    (hpath : ∀ c ∈ path.text.toList, c ≠ '\x60') :
    Path.firstQuoted problem.message = path.text := by
  obtain ⟨front, back, hfront, hmessage⟩ := exists_message hproblem
  rw [hmessage, Path.firstQuoted_append hfront hpath]

end Problem

end TimingDiagram
