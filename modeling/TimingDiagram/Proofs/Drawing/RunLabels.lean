import TimingDiagram.Proofs.Drawing.Layers
import TimingDiagram.Proofs.Drawing.RunMiddles
import TimingDiagram.Proofs.Wave.Shift

namespace TimingDiagram.Drawing

-- The data label that a row draws in the middle of a run, if there is one left for it.
def labelAt (bricks : List Brick) (data : List String) (r : Run) : Option String :=
  ((runMiddles bricks).zip data).lookup r.middle

theorem lookup_zip {keys : List ℕ} (hkeys : keys.Nodup) (data : List String) {i k : ℕ}
    (hi : keys[i]? = some k) : (keys.zip data).lookup k = data[i]? := by
  induction keys generalizing data i with
  | nil => cases hi
  | cons key rest ih =>
      obtain ⟨hkey, hrest⟩ := List.nodup_cons.mp hkeys
      cases data with
      | nil => rfl
      | cons label more =>
          rw [List.zip_cons_cons, List.lookup_cons]
          cases i with
          | zero =>
              rw [List.getElem?_cons_zero, Option.some_inj] at hi
              rw [hi, beq_self_eq_true, List.getElem?_cons_zero]
          | succ i =>
              rw [List.getElem?_cons_succ] at hi
              have hne : k ≠ key := by
                rintro rfl
                exact hkey (List.mem_of_getElem? hi)
              rw [beq_eq_false_iff_ne.mpr hne, List.getElem?_cons_succ]
              exact ih hrest more hi

-- Each run takes the label whose place in the list is the number of runs in front of it.
theorem labelAt_eq {bricks : List Brick} {r : Run} (hr : r.IsMaximal bricks)
    (data : List String) : labelAt bricks data r = data[wholeRuns bricks r.first]? :=
  lookup_zip (nodup_runMiddles bricks) data hr.middle_getElem?

-- Where no key comes twice, a list of pairs holds what is found in it under each key.
theorem zip_eq_filterMap {keys : List ℕ} (hkeys : keys.Nodup) (data : List String) :
    keys.zip data = keys.filterMap fun k => ((keys.zip data).lookup k).map (k, ·) := by
  induction keys generalizing data with
  | nil => rfl
  | cons key rest ih =>
      obtain ⟨hkey, hrest⟩ := List.nodup_cons.mp hkeys
      cases data with
      | nil => simp
      | cons label more =>
          let found := (key, label) :: rest.zip more
          -- the pair in front is found under its own key and under no other
          have hfirst : (found.lookup key).map (key, ·) = some (key, label) := by
            rw [List.lookup_cons_self, Option.map_some]
          have hothers : rest.filterMap (fun k => (found.lookup k).map (k, ·)) = rest.zip more := by
            conv_rhs => rw [ih hrest more]
            apply List.filterMap_congr
            intro k hk
            rw [List.lookup_cons, beq_eq_false_iff_ne.mpr (ne_of_mem_of_not_mem hk hkey)]
          rw [List.zip_cons_cons, List.filterMap_cons, hfirst, hothers]

-- A data label in the middle of a run.
def runLabel (cell : Cell) (r : Run) (value : String) : Node :=
  preserved [("x", toString (r.center * cell.width + cell.labelX)),
    ("y", toString cell.baseline), ("text-anchor", "middle")] (plainSpan value)

-- What is drawn of the data are the labels of the runs, from left to right.
theorem dataLabels_eq (cell : Cell) (bricks : List Brick) (data : List String) :
    ∃ runs : List Run, (∀ r, r ∈ runs ↔ r.IsMaximal bricks) ∧
      runs.Pairwise (fun r s => r.stop < s.first) ∧
      dataLabels cell bricks data =
        runs.filterMap fun r => (labelAt bricks data r).map (runLabel cell r) := by
  obtain ⟨runs, hmem, hordered, hmiddles⟩ := exists_maximal_runs bricks
  refine ⟨runs, hmem, hordered, ?_⟩
  rw [dataLabels, zip_eq_filterMap (nodup_runMiddles bricks), List.map_filterMap, hmiddles,
    List.filterMap_map]
  apply List.filterMap_congr
  intro r hr
  rw [Function.comp_apply, Option.map_map, labelAt, hmiddles]
  simp only [Function.comp_def, ((hmem r).mp hr).middle_div_two]
  rfl

theorem waveRow_labels (f : Frame) (index : ℕ) (row : Row) (bricks : List Brick) :
    ∃ draw, ∃ runs : List Run,
      ((Element.ofNode? (waveRow f index row bricks)).bind fun wave =>
        wave.part? [s!"wavelane_draw_{row.number}_{index}"]) = some draw ∧
      (∀ r, r ∈ runs ↔ r.IsMaximal bricks) ∧ runs.Pairwise (fun r s => r.stop < s.first) ∧
      draw.children = glyphs f.cell bricks ++
        runs.filterMap fun r => (labelAt bricks row.data r).map (runLabel f.cell r) := by
  obtain ⟨draw, hdraw, hchildren⟩ := child?_draw f index row bricks
  obtain ⟨runs, hmem, hordered, hlabels⟩ := dataLabels_eq f.cell bricks row.data
  exact ⟨draw, runs, hdraw, hmem, hordered, hlabels ▸ hchildren⟩

theorem labelAt_cut {bricks : List Brick} {r : Run} (hr : r.IsMaximal bricks)
    (data : List String) {count : ℕ} (hcount : count < r.stop) :
    labelAt (bricks.drop count) data (r.cut count) =
      data[wholeRuns bricks r.first - wholeRuns bricks count]? := by
  rw [labelAt_eq (hr.cut hcount), hr.wholeRuns_cut hcount, Nat.add_sub_cancel_left]

theorem bricks_eq_drop (wave : String) (stretch phase : Float) :
    Wave.bricks wave stretch phase = (Wave.bricks wave stretch (0.0 : Float)).drop
      ((Wave.bricks wave stretch (0.0 : Float)).length -
        (Wave.bricks wave stretch phase).length) := by
  have hwhole : Wave.bricks wave stretch (0.0 : Float) =
      Wave.unshifted wave (Stretch.of stretch) :=
    Wave.shifted_of_nonpos (by decide) _
  rw [hwhole, Wave.bricks, Wave.shifted_eq_drop, List.length_drop]
  congr 1
  have hle : (min (Wave.halfCyclesOff phase)
      (Wave.unshifted wave (Stretch.of stretch)).length).toNat ≤
        (Wave.unshifted wave (Stretch.of stretch)).length :=
    ENat.toNat_le_of_le_natCast (min_le_right _ _)
  omega

-- A phase hands the labels on: each run that is still to be seen takes the label of as many runs
-- further up as were cut off whole, and its own one only if no run was.
theorem labels_move_up (wave : String) (stretch phase : Float) (data : List String) :
    let whole := Wave.bricks wave stretch (0.0 : Float)
    let left := Wave.bricks wave stretch phase
    let off := whole.length - left.length
    left = whole.drop off ∧
      ∀ r : Run, r.IsMaximal whole → off < r.stop →
        (r.cut off).IsMaximal left ∧
        wholeRuns whole off ≤ wholeRuns whole r.first ∧
        labelAt whole data r = data[wholeRuns whole r.first]? ∧
        labelAt left data (r.cut off) = data[wholeRuns whole r.first - wholeRuns whole off]? ∧
        ((∀ s : Run, s.IsMaximal whole → off < s.stop) →
          labelAt left data (r.cut off) = labelAt whole data r) := by
  intro whole left off
  have hleft : left = whole.drop off := bricks_eq_drop wave stretch phase
  refine ⟨hleft, ?_⟩
  intro r hr hoff
  have hlabel := labelAt_eq hr data
  have hcut := labelAt_cut hr data hoff
  have hmaximal := hr.cut hoff
  have hfewer : wholeRuns whole off ≤ wholeRuns whole r.first :=
    Nat.le.intro (hr.wholeRuns_cut hoff).symm
  rw [← hleft] at hcut hmaximal
  refine ⟨hmaximal, hfewer, hlabel, hcut, ?_⟩
  intro hall
  have hnone : wholeRuns whole off = 0 := by
    have hempty : {s : Run | s.IsMaximal whole ∧ s.stop ≤ off} = ∅ :=
      Set.eq_empty_of_forall_notMem fun s hs => (hall s hs.1).not_ge hs.2
    rw [wholeRuns, hempty, Set.ncard_empty]
  rw [hcut, hlabel, hnone, Nat.sub_zero]

-- The first of three bus values is cut off whole and the second one in part.
theorem labels_move_up_behind_cut :
    let whole := Wave.bricks "2x34" (1.0 : Float) (0.0 : Float)
    let left := Wave.bricks "2x34" (1.0 : Float) (5.25 : Float)
    let data := ["a", "b", "c"]
    whole.length - left.length = 11 ∧
      Run.IsMaximal whole ⟨13, 16⟩ ∧ wholeRuns whole 13 = 2 ∧ wholeRuns whole 11 = 1 ∧
      Run.IsMaximal left ⟨2, 5⟩ ∧
      labelAt whole data ⟨13, 16⟩ = some "c" ∧ labelAt left data ⟨2, 5⟩ = some "b" := by
  intro whole left data
  let three : DataIndex := ⟨3, by decide, by decide⟩
  let four : DataIndex := ⟨4, by decide, by decide⟩
  let held (index : DataIndex) : Brick := .steady .value (some index)
  have hwhole : whole =
      [held .default, held .default, held .default, held .default,
        .transition .value .unknown (some .default) none,
        .steady .unknown none, .steady .unknown none, .steady .unknown none,
        .transition .unknown .value none (some three), held three, held three, held three,
        .transition .value .value (some three) (some four), held four, held four, held four] := rfl
  have hremains : left =
      [held three, .transition .value .value (some three) (some four), held four, held four,
        held four] := rfl
  have hoff : whole.length - left.length = 11 := by
    rw [hwhole, hremains]
    rfl
  have hr : Run.IsMaximal whole ⟨13, 16⟩ := by
    rw [hwhole]
    decide
  have hfront : wholeRuns whole 13 = 2 := by
    rw [wholeRuns_eq_count, hwhole]
    rfl
  have hcut : wholeRuns whole 11 = 1 := by
    rw [wholeRuns_eq_count, hwhole]
    rfl
  obtain ⟨-, hruns⟩ := labels_move_up "2x34" 1.0 5.25 data
  obtain ⟨hleft, -, hlabel, hmoved, -⟩ := hruns ⟨13, 16⟩ hr (by rw [hoff]; decide)
  rw [hfront] at hlabel
  rw [hfront, hoff, hcut] at hmoved
  rw [hoff] at hleft
  exact ⟨hoff, hr, hfront, hcut, hleft, hlabel, hmoved⟩

-- A bus value that is shown under the name of the one before it.
theorem not_labels_kept :
    ¬ ∀ (wave : String) (stretch phase : Float) (data : List String) (r : Run),
      let whole := Wave.bricks wave stretch (0.0 : Float)
      let left := Wave.bricks wave stretch phase
      let off := whole.length - left.length
      r.IsMaximal whole → off < r.stop →
        labelAt left data (r.cut off) = labelAt whole data r := by
  intro h
  let three : DataIndex := ⟨3, by decide, by decide⟩
  have hwhole : Wave.bricks "23" (0.0 : Float) (0.0 : Float) =
      [.steady .value (some .default), .steady .value (some .default),
        .transition .value .value (some .default) (some three), .steady .value (some three)] := rfl
  have hleft : Wave.bricks "23" (0.0 : Float) (1.0 : Float) =
      [.transition .value .value (some .default) (some three), .steady .value (some three)] := rfl
  have hlabels := h "23" 0.0 1.0 ["a", "b"] ⟨3, 4⟩
  simp only [hwhole, hleft] at hlabels
  have hkept := hlabels (by decide) (by decide)
  revert hkept
  decide

end TimingDiagram.Drawing
