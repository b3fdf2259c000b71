import TimingDiagram.Proofs.Command.LawfulFiles
import TimingDiagram.Proofs.Basic

namespace TimingDiagram.FileTree

instance : FileView FileTree where
  Location := Place
  locate t path := (t.locate path).toOption
  node := find?

section Put

variable {t : FileTree} {place : Place} {node : FileNode}

theorem lookup_filter_ne (nodes : List (Place × FileNode)) {other : Place} (h : other ≠ place) :
    (nodes.filter fun entry => entry.1 ≠ place).lookup other = nodes.lookup other := by
  induction nodes with
  | nil => rfl
  | cons entry rest ih =>
      obtain ⟨key, node⟩ := entry
      by_cases hkey : key = place
      · have hother : (other == key) = false := beq_eq_false_iff_ne.mpr (hkey ▸ h)
        rw [List.filter_cons_of_neg (by simpa using hkey), ih, List.lookup_cons, hother]
      · rw [List.filter_cons_of_pos (by simpa using hkey), List.lookup_cons, List.lookup_cons, ih]

theorem find?_put_ne {other : Place} (h : other ≠ place) :
    (t.put place node).find? other = t.find? other := by
  have hother : (other == place) = false := beq_eq_false_iff_ne.mpr h
  simp only [find?, put, List.lookup_cons, hother, lookup_filter_ne t.nodes h]

theorem isAbove_of_not_directory (hplace : t.find? place ≠ some .directory) :
    isAbove place = false := by
  by_contra habove
  rw [Bool.not_eq_false] at habove
  exact hplace (if_pos habove)

theorem find?_put_self (hplace : t.find? place ≠ some .directory) :
    (t.put place node).find? place = some node := by
  simp [find?, put, isAbove_of_not_directory hplace]

-- What a file replaces is no directory, so no way leads through it.
theorem step_put (hplace : t.find? place ≠ some .directory) {here next : Place} {name : String}
    (h : t.step here name = .ok next) : (t.put place node).step here name = .ok next := by
  have hhere : here ≠ place := by
    rintro rfl
    unfold step at h
    split at h
    · cases h
    · cases h
    · exact hplace ‹_›
  unfold step at h ⊢
  rwa [find?_put_ne hhere]

theorem foldlM_step_put (hplace : t.find? place ≠ some .directory) {here goal : Place}
    {names : List String} (h : names.foldlM t.step here = .ok goal) :
    names.foldlM (t.put place node).step here = .ok goal := by
  induction names generalizing here with
  | nil => exact h
  | cons name names ih =>
      rw [List.foldlM_cons, bind_eq_ok] at h ⊢
      obtain ⟨next, hstep, hrest⟩ := h
      exact ⟨next, step_put hplace hstep, ih hrest⟩

theorem walk_put (hplace : t.find? place ≠ some .directory) {names : List String} {goal : Place}
    (h : t.walk names = .ok goal) : (t.put place node).walk names = .ok goal := by
  unfold walk at h ⊢
  split at h
  · exact foldlM_step_put hplace h
  · exact foldlM_step_put hplace h

theorem locate_eq_ok {path : String} {goal : Place} :
    t.locate path = .ok goal ↔ checkForm path = .ok () ∧ t.walk (path.splitOn "/") = .ok goal := by
  rw [locate, bind_eq_ok]
  exact ⟨fun ⟨_, hform, hwalk⟩ => ⟨hform, hwalk⟩, fun ⟨hform, hwalk⟩ => ⟨(), hform, hwalk⟩⟩

theorem locate_put (hplace : t.find? place ≠ some .directory) {path : String} {goal : Place}
    (h : t.locate path = .ok goal) : (t.put place node).locate path = .ok goal := by
  rw [locate_eq_ok] at h ⊢
  exact ⟨h.1, walk_put hplace h.2⟩

end Put

variable {t t' : FileTree} {path text : String}

theorem locate_eq_some {place : Place} :
    FileView.locate t path = some place ↔ t.locate path = .ok place := by
  change (t.locate path).toOption = some place ↔ _
  cases t.locate path with
  | error e => simp [Except.toOption]
  | ok found => simp [Except.toOption]

theorem fromUTF8?_eq_some {content : ByteArray} :
    String.fromUTF8? content = some text ↔ content = text.toUTF8 := by
  unfold String.fromUTF8?
  constructor
  · intro h
    split at h
    · rw [← Option.some_inj.mp h]
      rfl
    · cases h
  · rintro rfl
    exact dif_pos text.isValidUTF8

theorem readText_eq_ok : t.readText path = .ok text ↔ FileView.Holds t path text := by
  rw [readText, bind_eq_ok]
  constructor
  · rintro ⟨place, hlocate, h⟩
    refine ⟨place, locate_eq_some.mpr hlocate, ?_⟩
    split at h
    · cases h
    · cases h
    · next content hfile =>
      split at h
      · next found htext =>
        cases h
        rw [← fromUTF8?_eq_some.mp htext]
        exact hfile
      · cases h
  · rintro ⟨place, hlocate, hfile⟩
    refine ⟨place, locate_eq_some.mp hlocate, ?_⟩
    change t.find? place = _ at hfile
    rw [hfile]
    simp only [fromUTF8?_eq_some.mpr rfl]

theorem textIn_of_holds (h : FileView.Holds t path text) : Files.textIn t path = .ok text :=
  readText_eq_ok.mpr h

theorem presentIn_of_holds (h : FileView.Holds t path text) : Files.presentIn t path = true := by
  obtain ⟨place, hlocate, hfile⟩ := h
  change t.find? place = _ at hfile
  change t.isPresent path = true
  rw [isPresent, locate_eq_some.mp hlocate]
  simp only [hfile, Option.isSome_some]

-- A write that succeeds puts a file where there is no directory.
theorem writeText_eq_ok :
    t.writeText path text = .ok t' ↔ path.endsWith "/" = false ∧
      ∃ place, t.locate path = .ok place ∧ t.find? place ≠ some .directory ∧
        t' = t.put place (.file text.toUTF8) := by
  unfold writeText
  constructor
  · intro h
    split at h
    · obtain ⟨_, _, h⟩ := bind_eq_ok.mp h
      obtain ⟨_, _, h⟩ := bind_eq_ok.mp h
      obtain ⟨_, _, h⟩ := bind_eq_ok.mp h
      cases h
    · next hslash =>
      obtain ⟨place, hlocate, h⟩ := bind_eq_ok.mp h
      refine ⟨by simpa using hslash, place, hlocate, ?_⟩
      split at h
      · cases h
      · next hfree =>
        cases h
        exact ⟨hfree, rfl⟩
  · rintro ⟨hslash, place, hlocate, hfree, rfl⟩
    rw [if_neg (by simp [hslash]), bind_eq_ok]
    refine ⟨place, hlocate, ?_⟩
    split
    · exact absurd ‹_› hfree
    · rfl

theorem writtenIn_ok (h : t.writeText path text = .ok t') :
    Files.writtenIn t path text = (.ok (), t') := by
  simp only [Files.writtenIn, Files.writeText, bind_pure_comp, StateT.run_bind, StateT.run_get,
    pure_bind, h, StateT.run_map, StateT.run_set, map_pure]
  rfl

theorem writtenIn_error {e : FileError} (h : t.writeText path text = .error e) :
    Files.writtenIn t path text = (.error e, t) := by
  simp only [Files.writtenIn, Files.writeText, bind_pure_comp, StateT.run_bind, StateT.run_get,
    pure_bind, h, StateT.run_pure]
  rfl

instance : LawfulFiles FileTree where
  isPresent_state _ _ := rfl
  readText_state _ _ := rfl
  readText_ok := readText_eq_ok.mp
  writeText_ok {t t' path text} h := by
    cases hwrite : t.writeText path text with
    | error e =>
        rw [writtenIn_error hwrite] at h
        cases h
    | ok written =>
        rw [writtenIn_ok hwrite] at h
        cases h
        obtain ⟨-, place, hlocate, hfree, rfl⟩ := writeText_eq_ok.mp hwrite
        have hthere : FileView.locate (t.put place (.file text.toUTF8)) path = some place :=
          locate_eq_some.mpr (locate_put hfree hlocate)
        refine ⟨⟨place, hthere, find?_put_self hfree⟩, ⟨?_, ?_⟩⟩
        · intro other goal h
          exact locate_eq_some.mpr (locate_put hfree (locate_eq_some.mp h))
        · intro other h
          exact find?_put_ne fun heq => h (heq ▸ hthere)
  writeText_error {t t' path text e} h := by
    cases hwrite : t.writeText path text with
    | error e' =>
        rw [writtenIn_error hwrite] at h
        exact (Prod.ext_iff.mp h).2.symm
    | ok written =>
        rw [writtenIn_ok hwrite] at h
        cases h

end TimingDiagram.FileTree
