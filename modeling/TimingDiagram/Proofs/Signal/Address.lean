import Mathlib
import TimingDiagram.Signal.Tree

namespace TimingDiagram

-- The child numbers on the way from an entry down to one inside it. The entry itself has none.
abbrev Address := List ℕ

-- Inner entries come before the groups around them, and otherwise earlier ones before later ones.
inductive ClosesBefore : Address → Address → Prop
  | inside (i : ℕ) (path : Address) : ClosesBefore (i :: path) []
  | earlier {i j : ℕ} (path other : Address) (h : i < j) : ClosesBefore (i :: path) (j :: other)
  | within (i : ℕ) {path other : Address} (h : ClosesBefore path other) :
      ClosesBefore (i :: path) (i :: other)

-- Where no entry lies inside the other, both orders of a tree agree.
theorem ClosesBefore.lt_or_inside {path other : Address} (h : ClosesBefore path other) :
    path < other ∨ ∃ i more, path = other ++ i :: more := by
  induction h with
  | inside i path => exact Or.inr ⟨i, path, rfl⟩
  | earlier path other h => exact Or.inl (List.cons_lt_cons_iff.mpr (Or.inl h))
  | within i h ih =>
      rcases ih with hlt | ⟨j, more, rfl⟩
      · exact Or.inl (List.cons_lt_cons_iff.mpr (Or.inr ⟨rfl, hlt⟩))
      · exact Or.inr ⟨j, more, rfl⟩

namespace Address

-- The address of the same entry once another one has been put in front of its siblings.
def later : Address → Address
  | [] => []
  | i :: path => (i + 1) :: path

theorem later_ne_nil {path : Address} (h : path ≠ []) : path.later ≠ [] := by
  cases path with
  | nil => exact absurd rfl h
  | cons i path => exact List.cons_ne_nil (i + 1) path

theorem closesBefore_later {path other : Address} (h : ClosesBefore path other) :
    ClosesBefore path.later other.later := by
  cases h with
  | inside i path => exact .inside (i + 1) path
  | earlier path other h => exact .earlier path other (Nat.succ_lt_succ h)
  | within i h => exact .within (i + 1) h

theorem zero_cons_closesBefore_later (path : Address) {other : Address} (h : other ≠ []) :
    ClosesBefore (0 :: path) other.later := by
  cases other with
  | nil => exact absurd rfl h
  | cons i other => exact .earlier path other (Nat.succ_pos i)

theorem later_lt_later (path other : Address) : path.later < other.later ↔ path < other := by
  cases path with
  | nil => cases other <;> simp [later]
  | cons i path => cases other <;> simp [later, List.cons_lt_cons_iff]

theorem zero_cons_lt_later (path : Address) {other : Address} (h : other ≠ []) :
    0 :: path < other.later := by
  cases other with
  | nil => exact absurd rfl h
  | cons i other => exact List.cons_lt_cons_iff.mpr (Or.inl (Nat.succ_pos i))

theorem later_prefix_later (path other : Address) :
    path.later <+: other.later ↔ path <+: other := by
  cases path with
  | nil => simp [later]
  | cons i path => cases other <;> simp [later, List.cons_prefix_cons]

theorem not_zero_cons_prefix_later (path other : Address) : ¬ 0 :: path <+: other.later := by
  cases other with
  | nil => simp [later]
  | cons i other => simp [later, List.cons_prefix_cons]

theorem not_later_prefix_zero_cons {path : Address} (h : path ≠ []) (other : Address) :
    ¬ path.later <+: 0 :: other := by
  cases path with
  | nil => exact absurd rfl h
  | cons i path => simp [later, List.cons_prefix_cons]

end Address

namespace Entry

def children : Entry → List Entry
  | .group _ entries => entries
  | .lane _ | .spacer => []

def isRow : Entry → Bool
  | .lane _ | .spacer => true
  | .group _ _ => false

def isGroup : Entry → Bool
  | .group _ _ => true
  | .lane _ | .spacer => false

-- The entry at an address, if the address leads to one.
def at? (e : Entry) : Address → Option Entry
  | [] => some e
  | i :: path => e.children[i]?.bind fun child => child.at? path

theorem at?_append (e : Entry) (path more : Address) :
    e.at? (path ++ more) = (e.at? path).bind fun inner => inner.at? more := by
  induction path generalizing e with
  | nil => rfl
  | cons i path ih =>
      simp only [List.cons_append, at?]
      cases e.children[i]? with
      | none => rfl
      | some child => exact ih child

theorem at?_cons_of_isRow (e : Entry) (he : e.isRow) (i : ℕ) (path : Address) :
    e.at? (i :: path) = none := by
  cases e with
  | lane l => rfl
  | spacer => rfl
  | group name entries => cases he

end Entry

section Addresses

variable (test : Entry → Bool)

-- An entry that passes a test, as the only address seen from itself.
def Entry.ownAddress (e : Entry) : List Address := if test e then [[]] else []

mutual

-- The addresses of the entries that pass a test, inner ones first.
def Entry.addresses : Entry → List Address
  | .lane l => Entry.ownAddress test (.lane l)
  | .spacer => Entry.ownAddress test .spacer
  | .group name entries => addressesIn entries ++ Entry.ownAddress test (.group name entries)

def addressesIn : List Entry → List Address
  | [] => []
  | e :: rest => e.addresses.map (0 :: ·) ++ (addressesIn rest).map Address.later

end

theorem mem_ownAddress (e : Entry) (path : Address) :
    path ∈ e.ownAddress test ↔ path = [] ∧ test e = true := by
  unfold Entry.ownAddress
  split <;> simp_all

theorem ne_nil_of_mem_addressesIn {entries : List Entry} {path : Address}
    (h : path ∈ addressesIn test entries) : path ≠ [] := by
  induction entries generalizing path with
  | nil => simp [addressesIn] at h
  | cons e rest ih =>
      simp only [addressesIn, List.mem_append, List.mem_map] at h
      obtain ⟨inner, -, rfl⟩ | ⟨behind, hbehind, rfl⟩ := h
      · exact List.cons_ne_nil 0 inner
      · exact Address.later_ne_nil (ih hbehind)

theorem zero_cons_mem_addressesIn (e : Entry) (rest : List Entry) (path : Address) :
    0 :: path ∈ addressesIn test (e :: rest) ↔ path ∈ e.addresses test := by
  have hlater : ∀ other : Address, other.later ≠ 0 :: path := by
    intro other
    cases other with
    | nil => simp [Address.later]
    | cons i other => simp [Address.later]
  simp [addressesIn, hlater]

theorem succ_cons_mem_addressesIn (e : Entry) (rest : List Entry) (i : ℕ) (path : Address) :
    (i + 1) :: path ∈ addressesIn test (e :: rest) ↔ i :: path ∈ addressesIn test rest := by
  have hlater : ∀ other : Address, other.later = (i + 1) :: path ↔ other = i :: path := by
    intro other
    cases other with
    | nil => simp [Address.later]
    | cons j other => simp [Address.later]
  simp [addressesIn, hlater]

mutual

-- The addresses found are those that lead to an entry passing the test.
theorem mem_addresses (e : Entry) (path : Address) :
    path ∈ e.addresses test ↔ (e.at? path).any test = true := by
  cases e with
  | lane l =>
      rw [Entry.addresses, mem_ownAddress]
      cases path with
      | nil => simp [Entry.at?]
      | cons i path => simp [Entry.at?, Entry.children]
  | spacer =>
      rw [Entry.addresses, mem_ownAddress]
      cases path with
      | nil => simp [Entry.at?]
      | cons i path => simp [Entry.at?, Entry.children]
  | group name entries =>
      rw [Entry.addresses, List.mem_append, mem_ownAddress, mem_addressesIn entries name path]
      cases path with
      | nil => simp [Entry.at?]
      | cons i path => simp

theorem mem_addressesIn (entries : List Entry) (name : Option String) (path : Address) :
    path ∈ addressesIn test entries ↔
      path ≠ [] ∧ ((Entry.group name entries).at? path).any test = true := by
  cases path with
  | nil =>
      have hnil : [] ∉ addressesIn test entries := fun h => ne_nil_of_mem_addressesIn test h rfl
      simp [hnil]
  | cons i path =>
      rw [and_iff_right (List.cons_ne_nil i path)]
      cases entries with
      | nil => simp [addressesIn, Entry.at?, Entry.children]
      | cons e rest =>
          cases i with
          | zero =>
              rw [zero_cons_mem_addressesIn]
              exact mem_addresses e path
          | succ i =>
              rw [succ_cons_mem_addressesIn, mem_addressesIn rest name (i :: path),
                and_iff_right (List.cons_ne_nil i path)]
              rfl

end

mutual

theorem closesBefore_addresses (e : Entry) : (e.addresses test).Pairwise ClosesBefore := by
  have hown : (e.ownAddress test).Pairwise ClosesBefore := by
    unfold Entry.ownAddress
    split <;> simp
  cases e with
  | lane l => exact hown
  | spacer => exact hown
  | group name entries =>
      rw [Entry.addresses, List.pairwise_append]
      refine ⟨closesBefore_addressesIn entries, hown, ?_⟩
      intro path hpath own hmem
      obtain ⟨rfl, -⟩ := (mem_ownAddress test _ own).mp hmem
      obtain ⟨i, more, rfl⟩ := List.exists_cons_of_ne_nil (ne_nil_of_mem_addressesIn test hpath)
      exact .inside i more

theorem closesBefore_addressesIn (entries : List Entry) :
    (addressesIn test entries).Pairwise ClosesBefore := by
  cases entries with
  | nil => exact List.Pairwise.nil
  | cons e rest =>
      rw [addressesIn, List.pairwise_append, List.pairwise_map, List.pairwise_map]
      refine ⟨?_, ?_, ?_⟩
      · exact (closesBefore_addresses e).imp fun h => .within 0 h
      · exact (closesBefore_addressesIn rest).imp Address.closesBefore_later
      · intro path hpath other hother
        obtain ⟨inner, -, rfl⟩ := List.mem_map.mp hpath
        obtain ⟨behind, hbehind, rfl⟩ := List.mem_map.mp hother
        exact Address.zero_cons_closesBefore_later inner (ne_nil_of_mem_addressesIn test hbehind)

end

end Addresses

-- No row lies inside another one, so rows close in the order in which they begin.
theorem pairwise_lt_rows (e : Entry) : (e.addresses Entry.isRow).Pairwise (· < ·) := by
  refine (closesBefore_addresses Entry.isRow e).imp_of_mem ?_
  intro path other hpath hother h
  rcases h.lt_or_inside with hlt | ⟨i, more, rfl⟩
  · exact hlt
  · rw [mem_addresses] at hpath hother
    obtain ⟨row, hrow, hisRow⟩ := (Option.any_eq_true _ _).mp hother
    rw [Entry.at?_append, hrow, Option.bind_some, Entry.at?_cons_of_isRow row hisRow] at hpath
    cases hpath

end TimingDiagram
