import TimingDiagram.Color.Printed
import TimingDiagram.Color.Reader
import TimingDiagram.Proofs.Number.SignedZero

namespace TimingDiagram

-- Other than `==`, equality tells the zeros of both signs apart.
deriving instance DecidableEq for Components, Color

-- One of two components is a zero and the other one is the zero of the other sign.
def OppositeZeros (x y : Option Float32) : Prop :=
  x = some 0.0 ∧ y = some (-0.0) ∨ x = some (-0.0) ∧ y = some 0.0

-- Components that are the same or zeros, missing ones only if both are missing.
def AlikeOrMissing (x y : Option Float32) : Prop := x = y ∨ OppositeZeros x y

theorem ne_of_oppositeZeros {x y : Option Float32} (h : OppositeZeros x y) : x ≠ y := by
  have hzeros : (0.0 : Float32) ≠ -0.0 := by decide
  rintro rfl
  rcases h with ⟨h, h'⟩ | ⟨h, h'⟩
  · exact hzeros (Option.some.inj (h.symm.trans h'))
  · exact hzeros (Option.some.inj (h'.symm.trans h))

theorem AlikeOrMissing.eq_iff {x y : Option Float32} (h : AlikeOrMissing x y) :
    x = y ↔ ¬ OppositeZeros x y :=
  ⟨fun heq hzeros => ne_of_oppositeZeros hzeros heq, h.resolve_right⟩

theorem Alike.some {x y : Float32} (h : Alike x y) : AlikeOrMissing (some x) (some y) := by
  rcases h.eq_or_opposite with rfl | ⟨rfl, rfl⟩ | ⟨rfl, rfl⟩
  · exact Or.inl rfl
  · exact Or.inr (Or.inl ⟨rfl, rfl⟩)
  · exact Or.inr (Or.inr ⟨rfl, rfl⟩)

theorem AlikeOrMissing.getD {x y : Option Float32} (h : AlikeOrMissing x y) :
    Alike (x.getD 0.0) (y.getD 0.0) := by
  rcases h with rfl | ⟨rfl, rfl⟩ | ⟨rfl, rfl⟩
  · exact Alike.refl _
  · exact Agree.zeros _ _
  · exact Agree.zeros _ _

theorem alikeOrMissing_of_beq {x y : Option Float32} (h : (x == y) = true) :
    AlikeOrMissing x y := by
  cases x with
  | none =>
      cases y with
      | none => exact Or.inl rfl
      | some y => cases h
  | some x =>
      cases y with
      | none => cases h
      | some y => exact (alike_of_beq h).some

namespace Components

def toList (c : Components) : List (Option Float32) := [c.first, c.second, c.third, c.alpha]

structure Alike (c d : Components) : Prop where
  first : AlikeOrMissing c.first d.first
  second : AlikeOrMissing c.second d.second
  third : AlikeOrMissing c.third d.third
  alpha : AlikeOrMissing c.alpha d.alpha

theorem alike_of_beq {c d : Components} (h : (c == d) = true) : Alike c d := by
  obtain ⟨c₁, c₂, c₃, c₄⟩ := c
  obtain ⟨d₁, d₂, d₃, d₄⟩ := d
  change (c₁ == d₁ && (c₂ == d₂ && (c₃ == d₃ && c₄ == d₄))) = true at h
  simp only [Bool.and_eq_true] at h
  exact ⟨alikeOrMissing_of_beq h.1, alikeOrMissing_of_beq h.2.1, alikeOrMissing_of_beq h.2.2.1,
    alikeOrMissing_of_beq h.2.2.2⟩

theorem Alike.eq_iff {c d : Components} (h : Alike c d) :
    c = d ↔ ∀ p ∈ c.toList.zip d.toList, ¬ OppositeZeros p.1 p.2 := by
  obtain ⟨c₁, c₂, c₃, c₄⟩ := c
  obtain ⟨d₁, d₂, d₃, d₄⟩ := d
  simp [toList, h.first.eq_iff, h.second.eq_iff, h.third.eq_iff, h.alpha.eq_iff]

end Components

namespace Color

section Conversion

variable {x x' y y' z z' : Float32}

theorem alike_least (hx : Alike x x') (hy : Alike y y') : Alike (least x y) (least x' y') := by
  unfold least
  by_cases h : x < y
  · rw [if_pos h, if_pos ((hx.lt_iff hy).mp h)]
    exact hx
  · rw [if_neg h, if_neg (mt (hx.lt_iff hy).mpr h)]
    exact hy

-- A hue is added to its place on the circle, where the sign of a zero is lost. Past that point the
-- hue itself is not looked at.
theorem place_add_hue_eq {place : Float32} (hplace : place.toModel.unpack ≠ .zero .negative)
    (hx : Alike x x') : place + x * (1.0 / 30.0) = place + x' * (1.0 / 30.0) := by
  have hadd := Agree.add_left_eq (f := .binary32) hplace (hx.mul (Alike.refl (1.0 / 30.0)))
  exact congrArg (fun u => Float32.ofModel (Float32.Model.pack u)) hadd

theorem rgbOfHsl_eq (hx : Alike x x') (y z : Float32) : rgbOfHsl x y z = rgbOfHsl x' y z := by
  have hprimary : ∀ place : Float32, place.toModel.unpack ≠ .zero .negative →
      primary x y z place = primary x' y z place := by
    intro place hplace
    unfold primary
    rw [place_add_hue_eq hplace hx]
  rw [rgbOfHsl, hprimary 0.0 nofun, hprimary 8.0 nofun, hprimary 4.0 nofun, rgbOfHsl]

theorem alike_primary {place : Float32} (hplace : place.toModel.unpack ≠ .zero .negative)
    (hx : Alike x x') (hy : Alike y y') (hz : Alike z z') :
    Alike (primary x y z place) (primary x' y' z' place) := by
  have hlight : Alike (z * 0.01) (z' * 0.01) := hz.mul (Alike.refl 0.01)
  have hchroma : Alike (y * 0.01 * least (z * 0.01) (1.0 - z * 0.01))
      (y' * 0.01 * least (z' * 0.01) (1.0 - z' * 0.01)) :=
    (hy.mul (Alike.refl 0.01)).mul (alike_least hlight ((Alike.refl 1.0).sub hlight))
  unfold primary
  dsimp only
  rw [place_add_hue_eq hplace hx]
  exact hlight.sub (hchroma.mul (Alike.refl _))

-- What a conversion makes of three numbers.
def AlikeTriples (p q : Float32 × Float32 × Float32) : Prop :=
  Alike p.1 q.1 ∧ Alike p.2.1 q.2.1 ∧ Alike p.2.2 q.2.2

theorem alike_rgbOfHsl (hx : Alike x x') (hy : Alike y y') (hz : Alike z z') :
    AlikeTriples (rgbOfHsl x y z) (rgbOfHsl x' y' z') :=
  ⟨alike_primary nofun hx hy hz, alike_primary nofun hx hy hz, alike_primary nofun hx hy hz⟩

-- A divisor of at least 1 is no zero.
theorem Alike.eq_of_one_le (h : Alike x y) (hx : 1.0 ≤ x) : x = y := by
  rcases h.eq_or_opposite with rfl | ⟨rfl, rfl⟩ | ⟨rfl, rfl⟩
  · rfl
  · exact absurd hx (by decide)
  · exact absurd hx (by decide)

theorem alike_rgbOfHwb (hx : Alike x x') (hy : Alike y y') (hz : Alike z z') :
    AlikeTriples (rgbOfHwb x y z) (rgbOfHwb x' y' z') := by
  have hwhite : Alike (y * 0.01) (y' * 0.01) := hy.mul (Alike.refl 0.01)
  have hblack : Alike (z * 0.01) (z' * 0.01) := hz.mul (Alike.refl 0.01)
  have hsum := hwhite.add hblack
  have hfull := (Alike.refl 1.0).le_iff hsum
  unfold rgbOfHwb
  dsimp only
  by_cases h : 1.0 ≤ y * 0.01 + z * 0.01
  · rw [if_pos h, if_pos (hfull.mp h), Alike.eq_of_one_le hsum h]
    exact ⟨hwhite.div _, hwhite.div _, hwhite.div _⟩
  · rw [if_neg h, if_neg (mt hfull.mpr h)]
    obtain ⟨hr, hg, hb⟩ := alike_rgbOfHsl hx (Alike.refl 100.0) (Alike.refl 50.0)
    have hrest := ((Alike.refl 1.0).sub hwhite).sub hblack
    exact ⟨hwhite.add (hr.mul hrest), hwhite.add (hg.mul hrest), hwhite.add (hb.mul hrest)⟩

theorem alike_convert {f : Float32 → Float32 → Float32 → Float32 × Float32 × Float32}
    (hf : ∀ {x x' y y' z z' : Float32}, Alike x x' → Alike y y' → Alike z z' →
      AlikeTriples (f x y z) (f x' y' z')) {c d : Components} (h : c.Alike d) :
    (convert f c).Alike (convert f d) := by
  obtain ⟨hx, hy, hz⟩ := hf h.first.getD h.second.getD h.third.getD
  exact ⟨hx.some, hy.some, hz.some, h.alpha⟩

end Conversion

section Texts

-- Scales under which the zeros stay zeros of their sign.
def KeepsZeros (scale : Float32) : Prop :=
  (0.0 : Float32) * scale = 0.0 ∧ (-0.0 : Float32) * scale = -0.0

theorem componentText_append_iff {scale : Float32} (hscale : KeepsZeros scale)
    {x y : Option Float32} (h : AlikeOrMissing x y) (front back : String) :
    componentText scale x ++ front = componentText scale y ++ back ↔ x = y ∧ front = back := by
  have hzero : componentText scale (some 0.0) = "0" := by
    rw [componentText, hscale.1]
    rfl
  have hnegative : componentText scale (some (-0.0)) = "-0" := by
    rw [componentText, hscale.2]
    rfl
  rcases h with rfl | hzeros
  · simp
  · refine iff_of_false ?_ fun heq => ne_of_oppositeZeros hzeros heq.1
    intro heq
    have hchars := congrArg String.toList heq
    rcases hzeros with ⟨rfl, rfl⟩ | ⟨rfl, rfl⟩ <;> simp [hzero, hnegative] at hchars

theorem keepsZeros_one : KeepsZeros 1.0 := by unfold KeepsZeros; decide

theorem keepsZeros_byte : KeepsZeros 255.0 := by unfold KeepsZeros; decide

variable {c d : Components}

theorem isOpaque_eq (h : c.Alike d) : isOpaque c = isOpaque d := by
  have hlt := h.alpha.getD.lt_iff (Alike.refl 1.0)
  rw [isOpaque, isOpaque, decide_eq_decide.mpr hlt]

-- Zeros of both signs would not be opaque.
theorem alpha_eq_of_isOpaque (h : c.Alike d) (hfull : isOpaque c = true) : c.alpha = d.alpha := by
  rcases h.alpha with heq | ⟨heq, -⟩ | ⟨heq, -⟩
  · exact heq
  · rw [isOpaque, heq] at hfull
    exact absurd hfull (by decide)
  · rw [isOpaque, heq] at hfull
    exact absurd hfull (by decide)

theorem components_eq_iff :
    c = d ↔ c.first = d.first ∧ c.second = d.second ∧ c.third = d.third ∧ c.alpha = d.alpha := by
  obtain ⟨c₁, c₂, c₃, c₄⟩ := c
  obtain ⟨d₁, d₂, d₃, d₄⟩ := d
  rw [Components.mk.injEq]

-- The components that both kinds of text begin with.
def firstThree (mark : String) (scale : Float32) (c : Components) : String :=
  mark.intercalate ([c.first, c.second, c.third].map (componentText scale))

theorem firstThree_append_iff (mark : String) {scale : Float32} (hscale : KeepsZeros scale)
    (h : c.Alike d) (front back : String) :
    firstThree mark scale c ++ front = firstThree mark scale d ++ back ↔
      (c.first = d.first ∧ c.second = d.second ∧ c.third = d.third) ∧ front = back := by
  have hspread : ∀ c rest, firstThree mark scale c ++ rest =
      componentText scale c.first ++ (mark ++ (componentText scale c.second ++
        (mark ++ (componentText scale c.third ++ rest)))) := by
    intro c rest
    simp only [← String.append_assoc]
    rfl
  rw [hspread, hspread, componentText_append_iff hscale h.first, String.append_right_inj,
    componentText_append_iff hscale h.second, String.append_right_inj,
    componentText_append_iff hscale h.third, and_assoc, and_assoc]

theorem rgbText_eq (c : Components) :
    rgbText c = if isOpaque c then "rgb(" ++ (firstThree ", " 255.0 c ++ ")")
      else "rgba(" ++
        (firstThree ", " 255.0 c ++ (", " ++ (componentText 1.0 c.alpha ++ ")"))) := by
  unfold rgbText
  split
  · exact String.append_assoc ..
  · simp only [← String.append_assoc]
    rfl

theorem rgbText_eq_iff (h : c.Alike d) : rgbText c = rgbText d ↔ c = d := by
  rw [rgbText_eq, rgbText_eq, ← isOpaque_eq h, components_eq_iff]
  by_cases hfull : isOpaque c
  · rw [if_pos hfull, if_pos hfull, String.append_right_inj,
      firstThree_append_iff ", " keepsZeros_byte h, alpha_eq_of_isOpaque h hfull]
    tauto
  · rw [if_neg hfull, if_neg hfull, String.append_right_inj,
      firstThree_append_iff ", " keepsZeros_byte h, String.append_right_inj,
      componentText_append_iff keepsZeros_one h.alpha]
    tauto

theorem argumentsText_eq_iff (h : c.Alike d) : argumentsText c = argumentsText d ↔ c = d := by
  change firstThree " " 1.0 c ++ _ = firstThree " " 1.0 d ++ _ ↔ _
  rw [← isOpaque_eq h, components_eq_iff, firstThree_append_iff " " keepsZeros_one h]
  by_cases hfull : isOpaque c
  · rw [if_pos hfull, if_pos hfull, alpha_eq_of_isOpaque h hfull]
    tauto
  · have halpha := componentText_append_iff keepsZeros_one h.alpha "" ""
    rw [String.append_empty, String.append_empty, and_iff_left rfl] at halpha
    rw [if_neg hfull, if_neg hfull, String.append_right_inj, halpha]
    tauto

end Texts

-- The components that stand in the text of a colour, in their order.
def written : Color → List (Option Float32)
  | .named _ => []
  | .inSpace .hsl true c => (convert rgbOfHsl c).toList
  | .inSpace .hwb true c => (convert rgbOfHwb c).toList
  | .inSpace _ _ c => c.toList

theorem written_common (space : ColorSpace) (c : Components) :
    (inSpace space false c).written = c.toList := by
  cases space <;> rfl

theorem text_eq_iff_of_inSpace (space : ColorSpace) (ownFunction : Bool) {c d : Components}
    (h : c.Alike d) :
    (inSpace space ownFunction c).text = (inSpace space ownFunction d).text ↔
      ∀ p ∈ (inSpace space ownFunction c).written.zip (inSpace space ownFunction d).written,
        ¬ OppositeZeros p.1 p.2 := by
  have harguments : ∀ front back : String,
      front ++ argumentsText c ++ back = front ++ argumentsText d ++ back ↔
        ∀ p ∈ c.toList.zip d.toList, ¬ OppositeZeros p.1 p.2 := by
    intro front back
    rw [String.append_left_inj, String.append_right_inj, argumentsText_eq_iff h, h.eq_iff]
  have hrgb : ∀ {c d : Components}, c.Alike d → (rgbText c = rgbText d ↔
      ∀ p ∈ c.toList.zip d.toList, ¬ OppositeZeros p.1 p.2) :=
    fun h => (rgbText_eq_iff h).trans h.eq_iff
  cases ownFunction with
  | false =>
      rw [written_common, written_common]
      exact harguments ("color(" ++ space.name ++ " ") ")"
  | true =>
      cases space with
      | srgb => exact hrgb h
      | hsl => exact hrgb (alike_convert alike_rgbOfHsl h)
      | hwb => exact hrgb (alike_convert alike_rgbOfHwb h)
      | _ => exact harguments (ColorSpace.name _ ++ "(") ")"

-- Two equal colours have the same text unless a zero of one sign stands in one text where the zero
-- of the other sign stands in the other one. Only then does a table hold both.
theorem equal_colors_text_eq_iff (a b : Color) (h : (a == b) = true) :
    (a.text = b.text ↔ ∀ p ∈ a.written.zip b.written, ¬ OppositeZeros p.1 p.2) ∧
      (isSameKey a b = true ↔ ∀ p ∈ a.written.zip b.written, ¬ OppositeZeros p.1 p.2) := by
  have htext : a.text = b.text ↔ ∀ p ∈ a.written.zip b.written, ¬ OppositeZeros p.1 p.2 := by
    cases a with
    | named name =>
        cases b with
        | named other =>
            have hname : name = other := eq_of_beq h
            subst hname
            exact iff_of_true rfl fun p hp => absurd hp List.not_mem_nil
        | inSpace => cases h
    | inSpace space ownFunction c =>
        cases b with
        | named => cases h
        | inSpace space' ownFunction' d =>
            change (space == space' && (ownFunction == ownFunction' && c == d)) = true at h
            simp only [Bool.and_eq_true, beq_iff_eq] at h
            obtain ⟨rfl, rfl, hcomponents⟩ := h
            exact text_eq_iff_of_inSpace space ownFunction (Components.alike_of_beq hcomponents)
  refine ⟨htext, ?_⟩
  rw [isSameKey, h, Bool.true_and, beq_iff_eq]
  exact htext

-- A zero that is written, and a hue, which is not.
theorem equal_colors_text_eq_iff_signed_zeros :
    ∃ a b c d, ofText? "rgb(-0 0 0)" = .ok a ∧ ofText? "rgb(0 0 0)" = .ok b ∧
      ofText? "hsl(-0 100 50)" = .ok c ∧ ofText? "hsl(0 100 50)" = .ok d ∧
      ((a == b) = true ∧ a.text ≠ b.text ∧ isSameKey a b = false) ∧
      ((c == d) = true ∧ c ≠ d ∧ c.text = d.text ∧ isSameKey c d = true) := by
  let black (red : Float32) : Color := inSpace .srgb true ⟨some red, some 0.0, some 0.0, some 1.0⟩
  let vivid (hue : Float32) : Components := ⟨some hue, some 100.0, some 50.0, some 1.0⟩
  have hzeros : ¬ ∀ p ∈ (black (-0.0)).written.zip (black 0.0).written, ¬ OppositeZeros p.1 p.2 :=
    fun h => h (some (-0.0), some 0.0) (List.mem_cons_self ..) (Or.inr ⟨rfl, rfl⟩)
  have hsame : ∀ p ∈ (inSpace .hsl true (vivid (-0.0))).written.zip
      (inSpace .hsl true (vivid 0.0)).written, ¬ OppositeZeros p.1 p.2 := by
    have hconvert : convert rgbOfHsl (vivid (-0.0)) = convert rgbOfHsl (vivid 0.0) := by
      have hzero : Alike (-0.0) 0.0 := Agree.zeros _ _
      simp only [convert, vivid, Option.getD_some, rgbOfHsl_eq hzero]
    have halike : (vivid (-0.0)).Alike (vivid 0.0) := Components.alike_of_beq (by decide)
    exact (alike_convert alike_rgbOfHsl halike).eq_iff.mp hconvert
  obtain ⟨htext, hkey⟩ := equal_colors_text_eq_iff (black (-0.0)) (black 0.0) (by decide)
  obtain ⟨htext', hkey'⟩ := equal_colors_text_eq_iff (inSpace .hsl true (vivid (-0.0)))
    (inSpace .hsl true (vivid 0.0)) (by decide)
  refine ⟨black (-0.0), black 0.0, inSpace .hsl true (vivid (-0.0)), inSpace .hsl true (vivid 0.0),
    by decide +kernel, by decide +kernel, by decide +kernel, by decide +kernel,
    ⟨by decide, mt htext.mp hzeros, Bool.eq_false_iff.mpr (mt hkey.mp hzeros)⟩,
    by decide, by decide, htext'.mpr hsame, hkey'.mpr hsame⟩

-- Equal colours with two entries in a table.
theorem not_equal_colors_same_text :
    ¬ ∀ (s t : String) (a b : Color), ofText? s = .ok a → ofText? t = .ok b →
      (a == b) = true → a.text = b.text ∧ isSameKey a b = true := by
  intro h
  let black (red : Float32) : Color := inSpace .srgb true ⟨some red, some 0.0, some 0.0, some 1.0⟩
  have hsame := h "rgb(-0 0 0)" "rgb(0 0 0)" (black (-0.0)) (black 0.0) (by decide +kernel)
    (by decide +kernel) (by decide)
  exact absurd hsame.1 (by decide +kernel)

end Color

end TimingDiagram
