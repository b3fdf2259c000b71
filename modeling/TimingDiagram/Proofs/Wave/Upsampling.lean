import TimingDiagram.Proofs.Wave.Events
import TimingDiagram.Proofs.Wave.EventBricks
import TimingDiagram.Proofs.Wave.Shift

namespace TimingDiagram

namespace Brick

-- Every brick takes `factor` cells: the brick itself, then what prolongs it.
def upsampled (factor : ℕ) (bricks : List Brick) : List Brick :=
  bricks.flatMap fun b => b :: List.replicate (factor - 1) b.sustain

-- The bricks whose places are multiples of `n`, counted from 0.
def everyNth (n : ℕ) (bricks : List Brick) : List Brick :=
  (bricks.zipIdx.filter fun placed => n ∣ placed.2).map Prod.fst

@[simp] theorem sustain_sustain (b : Brick) : b.sustain.sustain = b.sustain := rfl

theorem prolonged_eq_upsampled (extra : ℕ) (bricks : List Brick) :
    prolonged extra bricks = upsampled (1 + extra) bricks := by
  rw [upsampled, Nat.add_sub_cancel_left]
  rfl

theorem upsampled_one (bricks : List Brick) : upsampled 1 bricks = bricks :=
  List.flatMap_singleton' bricks

theorem upsampled_cons (factor : ℕ) (b : Brick) (rest : List Brick) :
    upsampled factor (b :: rest) =
      b :: (List.replicate (factor - 1) b.sustain ++ upsampled factor rest) := rfl

theorem upsampled_replicate_sustain (factor count : ℕ) (hfactor : 0 < factor) (b : Brick) :
    upsampled factor (List.replicate count b.sustain) =
      List.replicate (count * factor) b.sustain := by
  induction count with
  | zero => rw [Nat.zero_mul]; rfl
  | succ count ih =>
      have hcells : (count + 1) * factor = factor - 1 + count * factor + 1 := by
        rw [Nat.succ_mul]
        omega
      rw [List.replicate_succ, upsampled_cons, ih, sustain_sustain, ← List.replicate_add, hcells,
        List.replicate_succ]

-- What prolongs a prolonging brick is that brick, so the cells of a brick stay together.
theorem upsampled_upsampled (p q : ℕ) (hp : 0 < p) (hq : 0 < q) (bricks : List Brick) :
    upsampled q (upsampled p bricks) = upsampled (p * q) bricks := by
  have hcells : p * q - 1 = q - 1 + (p - 1) * q := by
    have h := Nat.sub_one_mul p q
    have hle := Nat.le_mul_of_pos_left q hp
    omega
  unfold upsampled
  rw [List.flatMap_assoc]
  apply List.flatMap_congr
  intro b _
  have hrest := upsampled_replicate_sustain q (p - 1) hq b
  unfold upsampled at hrest
  rw [List.flatMap_cons, hrest, hcells, List.replicate_add, List.cons_append]

-- Of the cells of a brick only the first one stands at a multiple of their number.
theorem map_filter_zipIdx_upsampled (n : ℕ) (hn : 0 < n) (bricks : List Brick) (k : ℕ) :
    (((upsampled n bricks).zipIdx (n * k)).filter fun placed => n ∣ placed.2).map Prod.fst =
      bricks := by
  induction bricks generalizing k with
  | nil => rfl
  | cons b rest ih =>
      have hnone : ((List.replicate (n - 1) b.sustain).zipIdx (n * k + 1)).filter
          (fun placed => n ∣ placed.2) = [] := by
        rw [List.filter_eq_nil_iff]
        rintro ⟨c, place⟩ hplaced
        obtain ⟨hfirst, hlast, -⟩ := List.mem_zipIdx hplaced
        rw [List.length_replicate] at hlast
        rw [decide_eq_true_eq]
        rintro ⟨m, rfl⟩
        have hk : k < m := Nat.lt_of_mul_lt_mul_left (a := n) (by omega)
        have hm : m < k + 1 := by
          apply Nat.lt_of_mul_lt_mul_left (a := n)
          rw [Nat.mul_succ]
          omega
        omega
      have hnext : n * k + 1 + (n - 1) = n * (k + 1) := by
        rw [Nat.mul_succ]
        omega
      rw [upsampled_cons, List.zipIdx_cons, List.zipIdx_append, List.filter_cons_of_pos (by simp),
        List.filter_append, hnone, List.nil_append, List.length_replicate, hnext, List.map_cons,
        ih (k + 1)]

theorem everyNth_upsampled (n : ℕ) (hn : 0 < n) (bricks : List Brick) :
    everyNth n (upsampled n bricks) = bricks := by
  have h := map_filter_zipIdx_upsampled n hn bricks 0
  rwa [Nat.mul_zero] at h

theorem map_filter_zipIdx_even : ∀ (bricks : List Brick) (k : ℕ),
    ((bricks.zipIdx (2 * k)).filter fun placed => 2 ∣ placed.2).map Prod.fst = alternate bricks
  | [], _ => rfl
  | [a], k => by
      rw [List.zipIdx_cons, List.filter_cons_of_pos (by simp)]
      rfl
  | a :: b :: rest, k => by
      have hnext : 2 * k + 1 + 1 = 2 * (k + 1) := rfl
      rw [List.zipIdx_cons, List.zipIdx_cons, List.filter_cons_of_pos (by simp),
        List.filter_cons_of_neg (by simp), List.map_cons, alternate, hnext,
        map_filter_zipIdx_even rest (k + 1)]

theorem alternate_eq_everyNth (bricks : List Brick) : alternate bricks = everyNth 2 bricks :=
  (map_filter_zipIdx_even bricks 0).symm

-- A part of even length leaves the places behind it even or odd as they are.
theorem alternate_append_of_even : ∀ (bricks more : List Brick), Even bricks.length →
    alternate (bricks ++ more) = alternate bricks ++ alternate more
  | [], _, _ => rfl
  | [_], _, h => by simp at h
  | a :: b :: rest, more, h => by
      have hrest : Even rest.length := by
        rw [List.length_cons, List.length_cons, Nat.even_add_one, Nat.even_add_one, not_not] at h
        exact h
      simp only [List.cons_append, alternate, alternate_append_of_even rest more hrest]

theorem alternate_flatMap {α : Type} (draw : α → List Brick) (items : List α)
    (h : ∀ a ∈ items, Even (draw a).length) :
    alternate (items.flatMap draw) = items.flatMap fun a => alternate (draw a) := by
  induction items with
  | nil => rfl
  | cons a rest ih =>
      rw [List.flatMap_cons, List.flatMap_cons, alternate_append_of_even _ _ (h a List.mem_cons_self),
        ih fun b hb => h b (List.mem_cons_of_mem _ hb)]

end Brick

namespace Event

theorem bricks_extra (e : Event) (extra : ℕ) :
    e.bricks (.extra extra) = Brick.upsampled (1 + extra) e.cutBricks :=
  Brick.prolonged_eq_upsampled extra e.cutBricks

theorem bricks_extra_zero (e : Event) : e.bricks (.extra 0) = e.cutBricks := by
  rw [bricks_extra, Brick.upsampled_one]

end Event

namespace Wave

theorem unshifted_extra (wave : String) (extra : ℕ) :
    unshifted wave (.extra extra) = Brick.upsampled (1 + extra) (unshifted wave (.extra 0)) := by
  unfold unshifted Brick.upsampled
  rw [List.flatMap_assoc]
  apply List.flatMap_congr
  intro e _
  rw [Event.bricks_extra_zero]
  exact e.bricks_extra extra

-- Where every cycle has two bricks that are no clock's, a halved wave is one with every other brick.
theorem unshifted_half (wave : String)
    (hwave : ∀ c ∈ wave.toList, isBracket c = false ∧ (Symbol.ofChar c).isClock = false) :
    unshifted wave .half = Brick.everyNth 2 (unshifted wave (.extra 0)) := by
  have hclock := symbols_events (p := fun s => s.isClock = false) wave rfl
    fun c hc _ => (hwave c hc).2
  have hshort : ∀ e ∈ events wave, e.short = false := by
    apply short_eventsFrom
    intro c hc
    rcases eq_x_or_mem_of_mem_openingSymbol wave.toList c hc with rfl | hc
    · rfl
    · exact (hwave c hc).1
  have heven : ∀ e ∈ events wave, Even (e.bricks (.extra 0)).length := by
    intro e he
    rw [Event.bricks_extra_zero, Event.length_cutBricks, Event.halfCycles, hshort e he]
    exact even_two_mul e.cycles
  rw [← Brick.alternate_eq_everyNth, unshifted, unshifted, Brick.alternate_flatMap _ _ heven]
  apply List.flatMap_congr
  intro e he
  rw [Event.bricks_extra_zero, Event.bricks, (hclock e he).1, if_neg Bool.false_ne_true]

theorem bricks_zero_stretch (wave : String) {phase : Float} (hphase : phase ≤ 0.0) :
    bricks wave 0.0 phase = unshifted wave (.extra 0) := by
  rw [bricks, shifted_of_nonpos hphase]
  rfl

-- Stretching a wave draws each of its bricks longer, and no brick is lost by it.
theorem bricks_upsampled :
    (∀ (wave : String) (stretch phase : Float), (stretch == -0.5) = false → phase ≤ 0.0 →
      Stretch.cells stretch ≤ 9999 ∧
      bricks wave stretch phase =
        Brick.upsampled (1 + Stretch.cells stretch) (bricks wave 0.0 phase) ∧
      Brick.everyNth (1 + Stretch.cells stretch) (bricks wave stretch phase) =
        bricks wave 0.0 phase) ∧
    (∀ (p q : ℕ) (bs : List Brick), 0 < p → 0 < q →
      Brick.upsampled q (Brick.upsampled p bs) = Brick.upsampled (p * q) bs) ∧
    ∀ (wave : String) (phase : Float), phase ≤ 0.0 →
      (∀ c ∈ wave.toList, isBracket c = false ∧ (Symbol.ofChar c).isClock = false) →
      bricks wave (-0.5) phase = Brick.everyNth 2 (bricks wave 0.0 phase) := by
  refine ⟨?_, fun p q bs hp hq => Brick.upsampled_upsampled p q hp hq bs, ?_⟩
  · intro wave stretch phase hstretch hphase
    have hextra : Stretch.of stretch = .extra (Stretch.cells stretch) := by
      rw [Stretch.of_eq, if_neg (Bool.eq_false_iff.mp hstretch)]
    have hbricks : bricks wave stretch phase =
        Brick.upsampled (1 + Stretch.cells stretch) (bricks wave 0.0 phase) := by
      rw [bricks_zero_stretch wave hphase, bricks, shifted_of_nonpos hphase, hextra,
        unshifted_extra]
    refine ⟨Stretch.cells_le_limit stretch, hbricks, ?_⟩
    rw [hbricks, Brick.everyNth_upsampled _ (by omega)]
  · intro wave phase hphase hwave
    have hhalf : Stretch.of (-0.5 : Float) = .half := by decide
    rw [bricks_zero_stretch wave hphase, bricks, shifted_of_nonpos hphase, hhalf,
      unshifted_half wave hwave]

-- A bus value that is cut short behind a clock, at three times the length, and one at half of it.
theorem bricks_upsampled_short_bus :
    let whole : List Brick :=
      [.edge .rising, .edge .falling, .transition .low .value none (some .default)]
    bricks "p<=" (2.0 : Float) (0.0 : Float) = Brick.upsampled 3 whole ∧
      Brick.everyNth 3 (bricks "p<=" (2.0 : Float) (0.0 : Float)) = whole ∧
      Brick.upsampled 2 (Brick.upsampled 3 whole) = Brick.upsampled 6 whole ∧
      bricks "h=." (-0.5 : Float) (0.0 : Float) =
        Brick.everyNth 2 (bricks "h=." (0.0 : Float) (0.0 : Float)) := by
  intro whole
  have hwhole : bricks "p<=" (0.0 : Float) (0.0 : Float) = whole := rfl
  have hcells : Stretch.cells 2.0 = 2 := by
    rw [← Stretch.countUpTo_limit]
    rfl
  have hplain : ∀ c ∈ "h=.".toList, isBracket c = false ∧ (Symbol.ofChar c).isClock = false := by
    have hchars : "h=.".toList = ['h', '=', '.'] := rfl
    simp only [hchars, List.forall_mem_cons]
    exact ⟨⟨rfl, rfl⟩, ⟨rfl, rfl⟩, ⟨rfl, rfl⟩, by simp⟩
  obtain ⟨-, hlong, hback⟩ := bricks_upsampled.1 "p<=" 2.0 0.0 rfl (by decide)
  rw [hcells, hwhole] at hlong hback
  exact ⟨hlong, hback, bricks_upsampled.2.1 3 2 whole (by decide) (by decide),
    bricks_upsampled.2.2 "h=." 0.0 (by decide) hplain⟩

end Wave

end TimingDiagram
