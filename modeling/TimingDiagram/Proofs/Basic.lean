import Mathlib
import TimingDiagram.Number.Checked

namespace TimingDiagram

section Steps

variable {ε α β : Type} {x : Except ε α} {f : α → Except ε β}

-- Two steps succeed if both do.
theorem bind_eq_ok {b : β} : x >>= f = .ok b ↔ ∃ a, x = .ok a ∧ f a = .ok b := by
  cases x with
  | error e => exact iff_of_false (fun h => nomatch h) fun ⟨_, h, _⟩ => nomatch h
  | ok a => exact ⟨fun h => ⟨a, rfl, h⟩, fun ⟨_, h, hf⟩ => (Except.ok.inj h) ▸ hf⟩

-- Two steps fail with the first one, or with the second if the first succeeds.
theorem bind_eq_error {e : ε} :
    x >>= f = .error e ↔ x = .error e ∨ ∃ a, x = .ok a ∧ f a = .error e := by
  cases x with
  | error d =>
      constructor
      · intro h
        exact Or.inl (congrArg Except.error (Except.error.inj h))
      · rintro (h | ⟨_, h, _⟩)
        · exact congrArg Except.error (Except.error.inj h)
        · cases h
  | ok a =>
      constructor
      · intro h
        exact Or.inr ⟨a, rfl, h⟩
      · rintro (h | ⟨_, h, hf⟩)
        · cases h
        · exact (Except.ok.inj h) ▸ hf

-- All steps succeed if each of them does.
theorem mapM_eq_ok {xs : List α} {ys : List β} :
    xs.mapM f = .ok ys ↔ List.Forall₂ (fun x y => f x = .ok y) xs ys := by
  induction xs generalizing ys with
  | nil =>
      rw [List.mapM_nil, List.forall₂_nil_left_iff]
      exact ⟨fun h => (Except.ok.inj h).symm, fun h => congrArg Except.ok h.symm⟩
  | cons x rest ih =>
      rw [List.mapM_cons, bind_eq_ok, List.forall₂_cons_left_iff]
      simp only [bind_eq_ok, ih]
      constructor
      · rintro ⟨y, hy, others, hothers, ⟨⟩⟩
        exact ⟨y, others, hy, hothers, rfl⟩
      · rintro ⟨y, others, hy, hothers, rfl⟩
        exact ⟨y, hy, others, hothers, rfl⟩

-- A step keeps its result when its errors are carried over.
theorem mapError_eq_ok {δ : Type} {g : ε → δ} {a : α} : x.mapError g = .ok a ↔ x = .ok a := by
  cases x with
  | error e => exact iff_of_false (fun h => nomatch h) fun h => nomatch h
  | ok b =>
      constructor
      · intro h
        exact congrArg Except.ok (Except.ok.inj h)
      · intro h
        exact congrArg Except.ok (Except.ok.inj h)

theorem map_eq_ok {g : α → β} {b : β} : x.map g = .ok b ↔ ∃ a, x = .ok a ∧ g a = b := by
  cases x with
  | error e => exact iff_of_false (fun h => nomatch h) fun ⟨_, h, _⟩ => nomatch h
  | ok a =>
      constructor
      · intro h
        exact ⟨a, rfl, Except.ok.inj h⟩
      · rintro ⟨_, h, rfl⟩
        exact congrArg (Except.ok ∘ g) (Except.ok.inj h)

theorem toOption_eq_some {a : α} : x.toOption = some a ↔ x = .ok a := by
  cases x with
  | error e => simp [Except.toOption]
  | ok b => simp [Except.toOption]

end Steps

section FailsAtFirst

variable {ν ε δ α β : Type} (met : ν → Bool) (failure : ν → ε)

-- A computation that needs some things one after the other and fails at the first that is not met.
def FailsAtFirst (needs : List ν) (x : Except ε α) : Prop :=
  match needs.find? fun n => !met n with
  | some n => x = .error (failure n)
  | none => ∃ a, x = .ok a

namespace FailsAtFirst

theorem pure (a : α) : FailsAtFirst met failure [] (Pure.pure a : Except ε α) := ⟨a, rfl⟩

variable {met failure} {needs more : List ν} {x : Except ε α}

theorem single {n : ν} (hmet : met n = true → ∃ a, x = .ok a)
    (hunmet : met n = false → x = .error (failure n)) : FailsAtFirst met failure [n] x := by
  unfold FailsAtFirst
  rw [List.find?_singleton]
  cases hn : met n with
  | true => exact hmet hn
  | false => exact hunmet hn

theorem bind {k : α → Except ε β} (hx : FailsAtFirst met failure needs x)
    (hk : ∀ a, x = .ok a → FailsAtFirst met failure more (k a)) :
    FailsAtFirst met failure (needs ++ more) (x >>= k) := by
  unfold FailsAtFirst at hx ⊢
  rw [List.find?_append]
  cases hfirst : needs.find? fun n => !met n with
  | some n =>
      rw [hfirst] at hx
      rw [hx]
      rfl
  | none =>
      rw [hfirst] at hx
      obtain ⟨a, rfl⟩ := hx
      exact hk a rfl

theorem map (hx : FailsAtFirst met failure needs x) (g : α → β) :
    FailsAtFirst met failure needs (x.map g) := by
  unfold FailsAtFirst at hx ⊢
  split at hx
  · rw [hx]
    rfl
  · obtain ⟨a, rfl⟩ := hx
    exact ⟨g a, rfl⟩

theorem congr {other : ν → ε} (hx : FailsAtFirst met failure needs x)
    (h : ∀ n ∈ needs, failure n = other n) : FailsAtFirst met other needs x := by
  unfold FailsAtFirst at hx ⊢
  split
  next n hfirst =>
    rw [hfirst] at hx
    rw [hx, h n (List.mem_of_find?_eq_some hfirst)]
  next hfirst =>
    rw [hfirst] at hx
    exact hx

theorem mapError (hx : FailsAtFirst met failure needs x) (g : ε → δ) :
    FailsAtFirst met (g ∘ failure) needs (x.mapError g) := by
  unfold FailsAtFirst at hx ⊢
  split at hx
  · rw [hx]
    rfl
  · obtain ⟨a, rfl⟩ := hx
    exact ⟨a, rfl⟩

theorem mapM {items : List α} {needsOf : α → List ν} {k : α → Except ε β}
    (h : ∀ a ∈ items, FailsAtFirst met failure (needsOf a) (k a)) :
    FailsAtFirst met failure (items.flatMap needsOf) (items.mapM k) := by
  induction items with
  | nil => exact pure met failure []
  | cons a rest ih =>
      obtain ⟨ha, hrest⟩ := List.forall_mem_cons.mp h
      rw [List.mapM_cons, List.flatMap_cons]
      refine ha.bind fun b _ => ?_
      rw [← List.append_nil (rest.flatMap needsOf)]
      exact (ih hrest).bind fun bs _ => pure met failure (b :: bs)

-- Needs that are known to be met can be left out.
theorem filter {p : ν → Bool} (hx : FailsAtFirst met failure needs x)
    (h : ∀ n ∈ needs, p n = false → met n = true) :
    FailsAtFirst met failure (needs.filter p) x := by
  have hfind : (needs.filter p).find? (fun n => !met n) = needs.find? fun n => !met n := by
    rw [List.find?_filter]
    apply List.find?_congr
    intro n hn
    cases hp : p n with
    | false => simp [h n hn hp]
    | true => simp
  unfold FailsAtFirst at hx ⊢
  rwa [hfind]

theorem of_map {μ : Type} {g : μ → ν} {items : List μ}
    (hx : FailsAtFirst met failure (items.map g) x) :
    FailsAtFirst (met ∘ g) (failure ∘ g) items x := by
  unfold FailsAtFirst at hx ⊢
  rw [List.find?_map] at hx
  change match items.find? ((fun n => !met n) ∘ g) with
    | some m => x = .error (failure (g m))
    | none => ∃ a, x = .ok a
  cases hfirst : items.find? ((fun n => !met n) ∘ g) with
  | none =>
      rw [hfirst] at hx
      exact hx
  | some m =>
      rw [hfirst] at hx
      exact hx

theorem ok_iff (hx : FailsAtFirst met failure needs x) :
    (∃ a, x = .ok a) ↔ ∀ n ∈ needs, met n = true := by
  unfold FailsAtFirst at hx
  split at hx
  next n hfirst =>
    have hunmet := List.find?_some hfirst
    have hmem := List.mem_of_find?_eq_some hfirst
    subst hx
    constructor
    · rintro ⟨a, ha⟩
      cases ha
    · intro hall
      rw [hall n hmem] at hunmet
      cases hunmet
  next hfirst =>
    refine ⟨fun _ n hn => ?_, fun _ => hx⟩
    simpa using List.find?_eq_none.mp hfirst n hn

-- Where all the needs at the front fail alike, it does not matter which one is not met.
theorem error_of_unmet {e : ε} {n : ν} (hx : FailsAtFirst met failure (needs ++ more) x)
    (h : ∀ n ∈ needs, failure n = e) (hn : n ∈ needs) (hunmet : met n = false) : x = .error e := by
  unfold FailsAtFirst at hx
  rw [List.find?_append] at hx
  cases hfirst : needs.find? fun n => !met n with
  | some m =>
      rw [hfirst] at hx
      rw [← h m (List.mem_of_find?_eq_some hfirst)]
      exact hx
  | none =>
      have hmet := List.find?_eq_none.mp hfirst n hn
      rw [hunmet] at hmet
      exact absurd rfl hmet

theorem error_iff (hx : FailsAtFirst met failure needs x) (e : ε) :
    x = .error e ↔ ∃ front n back, needs = front ++ n :: back ∧
      (∀ m ∈ front, met m = true) ∧ met n = false ∧ e = failure n := by
  have hfind : ∀ n, needs.find? (fun n => !met n) = some n ↔
      ∃ front back, needs = front ++ n :: back ∧
        (∀ m ∈ front, met m = true) ∧ met n = false := by
    intro n
    rw [List.find?_eq_some_iff_append]
    simp only [Bool.not_not, Bool.not_eq_true']
    constructor
    · rintro ⟨hn, front, back, hneeds, hfront⟩
      exact ⟨front, back, hneeds, hfront, hn⟩
    · rintro ⟨front, back, hneeds, hfront, hn⟩
      exact ⟨hn, front, back, hneeds, hfront⟩
  unfold FailsAtFirst at hx
  constructor
  · rintro rfl
    split at hx
    next n hfirst =>
      obtain ⟨front, back, hneeds, hfront, hn⟩ := (hfind n).mp hfirst
      exact ⟨front, n, back, hneeds, hfront, hn, Except.error.inj hx⟩
    next =>
      obtain ⟨a, ha⟩ := hx
      cases ha
  · rintro ⟨front, n, back, hneeds, hfront, hn, rfl⟩
    rw [(hfind n).mpr ⟨front, back, hneeds, hfront, hn⟩] at hx
    exact hx

end FailsAtFirst

end FailsAtFirst

section Sums

theorem map_addSigned {α : Type} (a b : Int64) (f : Int → α) :
    (addSigned a b).map (fun n => f n.toInt) =
      if IsWord (a.toInt + b.toInt) then .ok (f (a.toInt + b.toInt)) else .error .sum := by
  unfold addSigned
  split
  · rename_i h
    exact congrArg (Except.ok ∘ f) (Int64.toInt_ofInt_of_le h.1 h.2)
  · rfl

theorem foldlM_addCounts (counts : List Nat) (start : Nat) (hstart : start < countLimit) :
    counts.foldlM addCounts start =
      if start + counts.sum < countLimit then .ok (start + counts.sum) else .error .sum := by
  induction counts generalizing start with
  | nil => simp [hstart, pure, Except.pure]
  | cons n rest ih =>
      rw [List.foldlM_cons, addCounts, List.sum_cons, ← Nat.add_assoc]
      split
      · rename_i hlt
        exact ih (start + n) hlt
      · rename_i hge
        rw [if_neg (by omega)]
        rfl

-- A partial sum is too large only if the whole sum is.
theorem sumCounts_eq (counts : List Nat) :
    sumCounts counts = if counts.sum < countLimit then .ok counts.sum else .error .sum := by
  rw [sumCounts, foldlM_addCounts counts 0 (by decide), Nat.zero_add]

end Sums

namespace Text

variable {p : Char → Bool} {front rest : List Char}

-- Characters of one kind in front of something that starts otherwise are taken off the front.
theorem takeWhile_append_eq (hfront : ∀ c ∈ front, p c = true)
    (hrest : ∀ c ∈ rest.head?, p c = false) :
    (front ++ rest).takeWhile p = front := by
  rw [List.takeWhile_append_of_pos hfront]
  cases rest with
  | nil => rw [List.takeWhile_nil, List.append_nil]
  | cons c rest => rw [List.takeWhile_cons_of_neg (by simp [hrest c rfl]), List.append_nil]

theorem dropWhile_append_eq (hfront : ∀ c ∈ front, p c = true)
    (hrest : ∀ c ∈ rest.head?, p c = false) :
    (front ++ rest).dropWhile p = rest := by
  rw [List.dropWhile_append_of_pos hfront]
  cases rest with
  | nil => rw [List.dropWhile_nil]
  | cons c rest => rw [List.dropWhile_cons_of_neg (by simp [hrest c rfl])]

theorem head_dropWhile (p : Char → Bool) (cs : List Char) :
    ∀ c ∈ (cs.dropWhile p).head?, p c = false := by
  intro c hc
  have hnot := List.head?_dropWhile_not p cs
  rw [Option.mem_def.mp hc] at hnot
  exact hnot

end Text

end TimingDiagram
