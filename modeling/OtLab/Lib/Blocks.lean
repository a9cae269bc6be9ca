import Mathlib.Data.List.Basic

/-!
# Lists in blocks

A list cut into blocks of a fixed length, the last of which holds what is left. A block can be
sealed with a trailer that depends on it.

* `map_range_eq_blocks` — cutting by index
* `openBlocks_sealBlocks` — the blocks and their trailers are read back
-/

namespace OtLab.Lib

variable {α : Type*} {n t : ℕ}

/-- The blocks of a list, `n` elements each but the last. -/
def blocks (n : ℕ) (l : List α) : List (List α) :=
  if 0 < n ∧ l ≠ [] then l.take n :: blocks n (l.drop n) else []
termination_by l.length
decreasing_by
  have hpos := List.length_pos_iff.mpr (And.right ‹_›)
  rw [List.length_drop]
  omega

/-- Every block is followed by its trailer. -/
def sealBlocks (n : ℕ) (trailer : List α → List α) (l : List α) : List α :=
  (blocks n l).flatMap fun block => block ++ trailer block

/-- The blocks of a sealed list, and the trailers of length `t` behind them. -/
def openBlocks (n t : ℕ) (l : List α) : List (List α × List α) :=
  (blocks (n + t) l).map fun b => (b.take (b.length - t), b.drop (b.length - t))

@[simp] theorem blocks_nil (n : ℕ) : blocks n ([] : List α) = [] := by
  rw [blocks, if_neg (by simp)]

theorem blocks_of_ne_nil (hn : 0 < n) {l : List α} (h : l ≠ []) :
    blocks n l = l.take n :: blocks n (l.drop n) := by
  rw [blocks, if_pos ⟨hn, h⟩]

/-- A full block comes first, and so does a last one. -/
theorem blocks_append (hn : 0 < n) {a b : List α} (ha : a ≠ [])
    (h : a.length = n ∨ a.length ≤ n ∧ b = []) : blocks n (a ++ b) = a :: blocks n b := by
  rw [blocks_of_ne_nil hn (by simp [ha])]
  rcases h with rfl | ⟨hle, rfl⟩
  · rw [List.take_left, List.drop_left]
  · rw [List.append_nil, List.take_of_length_le hle, List.drop_of_length_le hle]

/-- Induction over the blocks of a list. -/
theorem blocks_induction (hn : 0 < n) {P : List α → Prop} (hnil : P [])
    (hblock : ∀ l, l ≠ [] → P (l.drop n) → P l) (l : List α) : P l := by
  induction hlen : l.length using Nat.strongRecOn generalizing l with
  | ind m ih =>
    by_cases hl : l = []
    · exact hl ▸ hnil
    · have hpos := List.length_pos_iff.mpr hl
      refine hblock l hl (ih _ ?_ _ rfl)
      rw [List.length_drop]
      omega

/-- The blocks together are the list. -/
theorem flatten_blocks (hn : 0 < n) (l : List α) : (blocks n l).flatten = l := by
  induction l using blocks_induction hn with
  | hnil => simp
  | hblock l hl ih => rw [blocks_of_ne_nil hn hl, List.flatten_cons, ih, List.take_append_drop]

theorem mem_blocks (hn : 0 < n) {l block : List α} (h : block ∈ blocks n l) :
    block ≠ [] ∧ block.length ≤ n := by
  induction l using blocks_induction hn with
  | hnil => simp at h
  | hblock l hl ih =>
    rw [blocks_of_ne_nil hn hl] at h
    rcases List.mem_cons.mp h with rfl | h
    · refine ⟨?_, List.length_take_le n l⟩
      rw [ne_eq, List.take_eq_nil_iff]
      exact not_or.mpr ⟨Nat.ne_of_gt hn, hl⟩
    · exact ih h

/-- **Cutting by index gives the blocks.** -/
theorem map_range_eq_blocks (hn : 0 < n) (l : List α) :
    (List.range ((l.length + (n - 1)) / n)).map (fun k => (l.drop (n * k)).take n)
      = blocks n l := by
  induction l using blocks_induction hn with
  | hnil => simp [Nat.div_eq_of_lt (Nat.sub_lt hn Nat.one_pos)]
  | hblock l hl ih =>
    have hcount : (l.length + (n - 1)) / n = ((l.drop n).length + (n - 1)) / n + 1 := by
      have hpos := List.length_pos_iff.mpr hl
      rw [List.length_drop]
      by_cases hle : n ≤ l.length
      · rw [← Nat.add_div_right _ hn]
        congr 1
        omega
      · -- a single block
        have hnone : (l.length - n + (n - 1)) / n = 0 := Nat.div_eq_of_lt (by omega)
        rw [hnone]
        exact Nat.div_eq_of_lt_le (k := 1) (by omega) (by omega)
    rw [hcount, List.range_succ_eq_map, List.map_cons, List.map_map, blocks_of_ne_nil hn hl, ← ih]
    simp [Function.comp_def, Nat.mul_add, Nat.add_comm]

variable {trailer : List α → List α}

theorem sealBlocks_of_ne_nil (hn : 0 < n) {l : List α} (h : l ≠ []) :
    sealBlocks n trailer l = l.take n ++ trailer (l.take n) ++ sealBlocks n trailer (l.drop n) := by
  rw [sealBlocks, blocks_of_ne_nil hn h, List.flatMap_cons]
  rfl

/-- Sealing makes every block longer by its trailer. -/
theorem blocks_sealBlocks (hn : 0 < n) (ht : ∀ block, (trailer block).length = t) (l : List α) :
    blocks (n + t) (sealBlocks n trailer l) = (blocks n l).map fun b => b ++ trailer b := by
  induction l using blocks_induction hn with
  | hnil => simp [sealBlocks]
  | hblock l hl ih =>
    have hlen : (l.take n ++ trailer (l.take n)).length = min n l.length + t := by
      rw [List.length_append, List.length_take, ht]
    rw [sealBlocks_of_ne_nil hn hl, blocks_of_ne_nil hn hl, List.map_cons, ← ih]
    refine blocks_append (by omega) ?_ ?_
    · have hpos := List.length_pos_iff.mpr hl
      rw [← List.length_pos_iff, hlen]
      omega
    · by_cases hle : n ≤ l.length
      · exact Or.inl (by omega)
      · refine Or.inr ⟨by omega, ?_⟩
        rw [List.drop_of_length_le (by omega), sealBlocks, blocks_nil]
        rfl

/-- **The blocks and their trailers are read back.** -/
theorem openBlocks_sealBlocks (hn : 0 < n) (ht : ∀ block, (trailer block).length = t)
    (l : List α) :
    openBlocks n t (sealBlocks n trailer l) = (blocks n l).map fun b => (b, trailer b) := by
  rw [openBlocks, blocks_sealBlocks hn ht, List.map_map]
  refine List.map_congr_left fun b _ => ?_
  simp [ht]

end OtLab.Lib
