import TimingDiagram.Proofs.Signal.Nesting

namespace TimingDiagram

namespace Outline

variable {depth start : ℕ}

-- Whether a box belongs to one of the entries that stand at `depth`, not to one inside them.
def isOutermost (depth : ℕ) (b : GroupBox) : Bool := b.x == depth + indent b.name

-- Boxes inside a group are indented too far to be taken for its own.
theorem isOutermost_eq_false (name : Option String) (entries : List Entry) :
    ∀ b ∈ (ofEntries (depth + indent name) start entries).boxes, isOutermost depth b = false := by
  intro b hb
  have hindent := (nested_ofEntries (depth + indent name) start entries).indent_le b hb
  have hpos := indent_pos name
  simp only [isOutermost, beq_eq_false_iff_ne]
  omega

-- There is one way to cut a list at its first item of a kind.
theorem cut_unique {α : Type} (kind : α → Bool) {front front' back back' : List α} {own own' : α}
    (hfront : ∀ b ∈ front, kind b = false) (hfront' : ∀ b ∈ front', kind b = false)
    (hown : kind own = true) (hown' : kind own' = true)
    (h : front ++ own :: back = front' ++ own' :: back') :
    front = front' ∧ own = own' ∧ back = back' := by
  have hkeep : ∀ b ∈ front, (!kind b) = true := by simpa using hfront
  have hkeep' : ∀ b ∈ front', (!kind b) = true := by simpa using hfront'
  have htake := congrArg (List.takeWhile fun b => !kind b) h
  have hdrop := congrArg (List.dropWhile fun b => !kind b) h
  rw [List.takeWhile_append_of_pos hkeep, List.takeWhile_append_of_pos hkeep'] at htake
  rw [List.dropWhile_append_of_pos hkeep, List.dropWhile_append_of_pos hkeep'] at hdrop
  simp only [List.takeWhile_cons, List.dropWhile_cons, hown, hown', Bool.not_true,
    Bool.false_eq_true, if_false, List.append_nil, List.cons.injEq] at htake hdrop
  exact ⟨htake, hdrop⟩

theorem eq_of_parts {o o' : Outline} (hrows : o.rows = o'.rows) (hboxes : o.boxes = o'.boxes) :
    o = o' := by
  cases o
  cases o'
  cases hrows
  cases hboxes
  rfl

theorem ofEntry_cases (depth start : ℕ) (e : Entry) :
    (∃ lane, ofEntry depth start e = ⟨[⟨start, depth, lane⟩], []⟩) ∨
      ∃ name entries, e = .group name entries := by
  cases e with
  | lane l => exact Or.inl ⟨some l, rfl⟩
  | spacer => exact Or.inl ⟨none, rfl⟩
  | group name entries => exact Or.inr ⟨name, entries, rfl⟩

theorem ofEntries_cons (depth start : ℕ) (e : Entry) (rest : List Entry) :
    ofEntries depth start (e :: rest) =
      let others := ofEntries depth (start + (ofEntry depth start e).rows.length) rest
      ⟨(ofEntry depth start e).rows ++ others.rows,
        (ofEntry depth start e).boxes ++ others.boxes⟩ := rfl

theorem ofEntry_group (depth start : ℕ) (name : Option String) (entries : List Entry) :
    ofEntry depth start (.group name entries) =
      let within := ofEntries (depth + indent name) start entries
      ⟨within.rows, within.boxes ++ [⟨name, depth + indent name, start, within.rows.length⟩]⟩ := rfl

-- Behind a row no box begins where the row stands, so entries do not begin with a row and with a
-- group alike.
theorem ofEntries_row_ne_group {e : Entry} {lane : Option Lane}
    (he : ofEntry depth start e = ⟨[⟨start, depth, lane⟩], []⟩) (name : Option String)
    (entries rest rest' : List Entry) :
    ofEntries depth start (e :: rest) ≠ ofEntries depth start (.group name entries :: rest') := by
  intro h
  have hboxes := congrArg Outline.boxes h
  rw [ofEntries_cons, ofEntries_cons, he, ofEntry_group] at hboxes
  simp only [List.nil_append, List.append_assoc, List.length_singleton] at hboxes
  have hown : (⟨name, depth + indent name, start,
      (ofEntries (depth + indent name) start entries).rows.length⟩ : GroupBox) ∈
      (ofEntries depth (start + 1) rest).boxes := by
    rw [hboxes]
    simp
  have hstart := (nested_ofEntries depth (start + 1) rest).start_le _ hown
  dsimp only at hstart
  omega

theorem ofEntries_row_inj {e e' : Entry} {lane lane' : Option Lane} {rest rest' : List Entry}
    (he : ofEntry depth start e = ⟨[⟨start, depth, lane⟩], []⟩)
    (he' : ofEntry depth start e' = ⟨[⟨start, depth, lane'⟩], []⟩)
    (h : ofEntries depth start (e :: rest) = ofEntries depth start (e' :: rest')) :
    lane = lane' ∧ ofEntries depth (start + 1) rest = ofEntries depth (start + 1) rest' := by
  rw [ofEntries_cons, ofEntries_cons, he, he'] at h
  simp only [List.cons_append, List.nil_append, List.length_singleton, Outline.mk.injEq,
    List.cons.injEq, Row.mk.injEq, true_and] at h
  obtain ⟨⟨hlane, hrows⟩, hboxes⟩ := h
  exact ⟨hlane, eq_of_parts hrows hboxes⟩

-- The box of the first group is found as the first outermost one, and its height tells which rows
-- are inside.
theorem ofEntries_group_inj {name name' : Option String} {entries entries' rest rest' : List Entry}
    (h : ofEntries depth start (.group name entries :: rest) =
      ofEntries depth start (.group name' entries' :: rest')) :
    ofEntry depth start (.group name entries) = ofEntry depth start (.group name' entries') ∧
      ofEntries depth (start + (ofEntry depth start (.group name entries)).rows.length) rest =
        ofEntries depth
          (start + (ofEntry depth start (.group name entries)).rows.length) rest' := by
  have hrows := congrArg Outline.rows h
  have hboxes := congrArg Outline.boxes h
  simp only [ofEntries_cons, ofEntry_group, List.append_assoc, List.singleton_append]
    at hrows hboxes
  have hkind : ∀ name height, isOutermost depth ⟨name, depth + indent name, start, height⟩ := by
    simp [isOutermost]
  obtain ⟨hinner, hown, hbehind⟩ := cut_unique (isOutermost depth)
    (isOutermost_eq_false name entries) (isOutermost_eq_false name' entries')
    (hkind name _) (hkind name' _) hboxes
  simp only [GroupBox.mk.injEq, true_and] at hown
  obtain ⟨rfl, -, hheight⟩ := hown
  obtain ⟨hwithin, hothers⟩ := List.append_inj hrows hheight
  rw [← hheight] at hothers hbehind
  refine ⟨?_, eq_of_parts hothers hbehind⟩
  rw [ofEntry_group, ofEntry_group, eq_of_parts hwithin hinner]

-- The outline of entries falls apart into that of the first one and that of the others.
theorem ofEntries_cons_inj {e e' : Entry} {rest rest' : List Entry}
    (h : ofEntries depth start (e :: rest) = ofEntries depth start (e' :: rest')) :
    ofEntry depth start e = ofEntry depth start e' ∧
      ofEntries depth (start + (ofEntry depth start e).rows.length) rest =
        ofEntries depth (start + (ofEntry depth start e).rows.length) rest' := by
  rcases ofEntry_cases depth start e with ⟨lane, he⟩ | ⟨name, entries, rfl⟩
  · rcases ofEntry_cases depth start e' with ⟨lane', he'⟩ | ⟨name', entries', rfl⟩
    · obtain ⟨rfl, hothers⟩ := ofEntries_row_inj he he' h
      rw [he, he']
      exact ⟨rfl, hothers⟩
    · exact absurd h (ofEntries_row_ne_group he name' entries' rest rest')
  · rcases ofEntry_cases depth start e' with ⟨lane', he'⟩ | ⟨name', entries', rfl⟩
    · exact absurd h.symm (ofEntries_row_ne_group he' name entries rest' rest)
    · exact ofEntries_group_inj h

-- Some row or box of the first entry shows how far its list is indented.
theorem depth_shown (depth start : ℕ) {entries : List Entry} (h : entries ≠ []) :
    (∃ row ∈ (ofEntries depth start entries).rows, row.depth = depth) ∨
      ∃ b ∈ (ofEntries depth start entries).boxes, b.x = depth + indent b.name := by
  obtain ⟨e, rest, rfl⟩ := List.exists_cons_of_ne_nil h
  rw [ofEntries_cons]
  rcases ofEntry_cases depth start e with ⟨lane, he⟩ | ⟨name, entries, rfl⟩
  · rw [he]
    exact Or.inl ⟨⟨start, depth, lane⟩, by simp, rfl⟩
  · rw [ofEntry_group]
    exact Or.inr ⟨⟨name, depth + indent name, start,
      (ofEntries (depth + indent name) start entries).rows.length⟩, by simp, rfl⟩

theorem eq_nil_of_ofEntries (depth start : ℕ) {entries : List Entry}
    (h : ofEntries depth start entries = ⟨[], []⟩) : entries = [] := by
  by_contra hne
  rcases depth_shown depth start hne with ⟨row, hrow, -⟩ | ⟨b, hb, -⟩
  · rw [h] at hrow
    cases hrow
  · rw [h] at hb
    cases hb

-- Nothing in an outline stands further to the left than its list.
theorem depth_le_of_eq {depth' : ℕ} {entries entries' : List Entry} (hne : entries ≠ [])
    (h : ofEntries depth start entries = ofEntries depth' start entries') : depth' ≤ depth := by
  have hnested := nested_ofEntries depth' start entries'
  rcases depth_shown depth start hne with ⟨row, hrow, hdepth⟩ | ⟨b, hb, hx⟩
  · rw [h] at hrow
    have hle := hnested.depth_le hrow
    omega
  · rw [h] at hb
    have hle := hnested.indent_le b hb
    omega

mutual

theorem ofEntry_injective (depth start : ℕ) (e e' : Entry)
    (h : ofEntry depth start e = ofEntry depth start e') : e = e' := by
  have hrows := congrArg Outline.rows h
  have hboxes := congrArg Outline.boxes h
  cases e with
  | lane l =>
      cases e' with
      | lane l' =>
          simp only [ofEntry, List.cons.injEq, Row.mk.injEq, Option.some_inj] at hrows
          rw [hrows.1.2.2]
      | spacer => simp [ofEntry] at hrows
      | group name' entries' => simp [ofEntry] at hboxes
  | spacer =>
      cases e' with
      | lane l' => simp [ofEntry] at hrows
      | spacer => rfl
      | group name' entries' => simp [ofEntry] at hboxes
  | group name entries =>
      cases e' with
      | lane l' => simp [ofEntry] at hboxes
      | spacer => simp [ofEntry] at hboxes
      | group name' entries' =>
          simp only [ofEntry_group] at hrows hboxes
          obtain ⟨hinner, hown⟩ := List.append_inj' hboxes rfl
          simp only [List.cons.injEq, GroupBox.mk.injEq] at hown
          obtain ⟨⟨rfl, -⟩, -⟩ := hown
          rw [ofEntries_injective (depth + indent name) start entries entries'
            (eq_of_parts hrows hinner)]

theorem ofEntries_injective (depth start : ℕ) (entries entries' : List Entry)
    (h : ofEntries depth start entries = ofEntries depth start entries') :
    entries = entries' := by
  cases entries with
  | nil => exact (eq_nil_of_ofEntries depth start h.symm).symm
  | cons e rest =>
      cases entries' with
      | nil => exact eq_nil_of_ofEntries depth start h
      | cons e' rest' =>
          obtain ⟨hfirst, hothers⟩ := ofEntries_cons_inj h
          rw [ofEntry_injective depth start e e' hfirst,
            ofEntries_injective depth _ rest rest' hothers]

end

end Outline

-- An outline tells its tree: the entries in all their nesting, and the indentation of the root as
-- soon as there is an entry.
theorem Group.outline_eq_iff (root other : Group) :
    root.outline = other.outline ↔
      root.entries = other.entries ∧
        (root.entries = [] ∨ Outline.indent root.name = Outline.indent other.name) := by
  constructor
  · intro h
    by_cases hnil : root.entries = []
    · have hempty : other.outline = ⟨[], []⟩ := by
        rw [← h, outline, hnil]
        rfl
      exact ⟨hnil.trans (Outline.eq_nil_of_ofEntries _ 0 hempty).symm, Or.inl hnil⟩
    · have hother : other.entries ≠ [] := by
        intro hother
        have hempty : root.outline = ⟨[], []⟩ := by
          rw [h, outline, hother]
          rfl
        exact hnil (Outline.eq_nil_of_ofEntries _ 0 hempty)
      have hindent : Outline.indent root.name = Outline.indent other.name :=
        le_antisymm (Outline.depth_le_of_eq hother h.symm) (Outline.depth_le_of_eq hnil h)
      refine ⟨?_, Or.inr hindent⟩
      rw [outline, outline, hindent] at h
      exact Outline.ofEntries_injective _ 0 root.entries other.entries h
  · rintro ⟨hentries, hnil | hindent⟩
    · rw [outline, outline, ← hentries, hnil]
      rfl
    · rw [outline, outline, hentries, hindent]

end TimingDiagram
