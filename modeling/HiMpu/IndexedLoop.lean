import Mathlib.Tactic

/-!
# Loops over independent places

A loop that works on one place of a state after the other leaves every place as a single
round would, when no place comes twice.  A loop that only adds bits to words leaves the
bits that some round adds.
-/

namespace HiMpu.IndexedLoop

def grid (rows cols : ℕ) : List (ℕ × ℕ) :=
  (List.range rows).flatMap fun row => (List.range cols).map fun col => (row, col)

theorem mem_grid {rows cols : ℕ} {i : ℕ × ℕ} : i ∈ grid rows cols ↔ i.1 < rows ∧ i.2 < cols := by
  unfold grid
  simp only [List.mem_flatMap, List.mem_range, List.mem_map]
  constructor
  · rintro ⟨row, hrow, col, hcol, rfl⟩
    exact ⟨hrow, hcol⟩
  · intro h
    exact ⟨i.1, h.1, i.2, h.2, rfl⟩

theorem nodup_grid (rows cols : ℕ) : (grid rows cols).Nodup := by
  unfold grid
  rw [List.nodup_flatMap]
  constructor
  · intro row _
    exact List.nodup_range.map fun col col' h => congrArg Prod.snd h
  · apply List.nodup_range.imp
    intro row row' hne i hi hi'
    obtain ⟨col, _, rfl⟩ := List.mem_map.mp hi
    obtain ⟨col', _, heq⟩ := List.mem_map.mp hi'
    exact hne (congrArg Prod.fst heq).symm

theorem foldl_grid {σ : Type} (rows cols : ℕ) (body : ℕ → ℕ → σ → σ) (s : σ) :
    (List.range rows).foldl
        (fun s row => (List.range cols).foldl (fun s col => body row col s) s) s =
      (grid rows cols).foldl (fun s i => body i.1 i.2 s) s := by
  unfold grid
  rw [List.foldl_flatMap]
  simp only [List.foldl_map]

theorem foldl_filter_eq {σ ι : Type} (p : ι → Bool) (body : ι → σ → σ) (l : List ι) (s : σ) :
    l.foldl (fun s i => if p i = true then body i s else s) s =
      (l.filter p).foldl (fun s i => body i s) s := by
  rw [List.foldl_filter]

section Places

variable {σ ι β : Type} [DecidableEq ι] (view : σ → ι → β) (body : ι → σ → σ) (upd : ι → β → β)

theorem foldl_places {l : List ι} (hnodup : l.Nodup)
    (hbody : ∀ i ∈ l, ∀ s j, view (body i s) j = if j = i then upd i (view s i) else view s j)
    (s : σ) (j : ι) :
    view (l.foldl (fun s i => body i s) s) j = if j ∈ l then upd j (view s j) else view s j := by
  induction l generalizing s with
  | nil => simp
  | cons i l ih =>
    obtain ⟨hi, hl⟩ := List.nodup_cons.mp hnodup
    rw [List.foldl_cons, ih hl fun k hk => hbody k (List.mem_cons_of_mem i hk),
      hbody i List.mem_cons_self]
    by_cases hj : j = i
    · subst hj
      simp [hi]
    · simp [hj]

end Places

section Words

variable {ι : Type} {width : ℕ}

theorem getLsbD_foldl_or (l : List ι) (row : ι → ℕ) (value : ι → BitVec width)
    (words : ℕ → BitVec width) (r b : ℕ) :
    (l.foldl (fun words i => Function.update words (row i) (words (row i) ||| value i)) words
        r).getLsbD b = true ↔
      (words r).getLsbD b = true ∨ ∃ i ∈ l, row i = r ∧ (value i).getLsbD b = true := by
  induction l generalizing words with
  | nil => simp
  | cons i l ih =>
    rw [List.foldl_cons, ih]
    by_cases hi : row i = r
    · subst hi
      simp [or_assoc]
    · have hne : r ≠ row i := fun h => hi h.symm
      simp [Function.update_of_ne hne, hi]

end Words

theorem foldl_last {α ι : Type} (value : ι → α) (l : List ι) (a : α) :
    l.foldl (fun _ i => value i) a = (l.getLast?.map value).getD a := by
  induction l generalizing a with
  | nil => rfl
  | cons i l ih =>
    rw [List.foldl_cons, ih, List.getLast?_cons]
    cases l.getLast? with
    | none => rfl
    | some j => rfl

end HiMpu.IndexedLoop
