import Mathlib.Data.List.Basic

/-!
# Lines of a growing text

Text over any alphabet with a newline. `readline` may be called in the middle of a line, and then
returns what there is of it; `splitLines` says which lines are complete.

* `splitLines_append` — reading a text piece by piece completes the same lines
* `splitLines_of_mem` — `readline` returns the first complete line when there is one
* `splitLines_ended` / `pieces_ended` — lines that were ended one by one are read back
-/

namespace OtLab.Lib

variable {α : Type*} [DecidableEq α] {nl : α}

/-- Up to and with the first newline, or everything. -/
def readline (nl : α) : List α → List α
  | [] => []
  | a :: l => if a = nl then [a] else a :: readline nl l

/-- The lines completed by a text after the beginning `p` of a line, and the unfinished line. -/
def splitLines (nl : α) (p : List α) : List α → List (List α) × List α
  | [] => ([], p)
  | a :: l =>
    if a = nl then ((p ++ [a]) :: (splitLines nl [] l).1, (splitLines nl [] l).2)
    else splitLines nl (p ++ [a]) l

/-- The text ends in an unfinished line. -/
def unfinished (nl : α) (l : List α) : List α := (splitLines nl [] l).2

theorem splitLines_append (p l l' : List α) :
    splitLines nl p (l ++ l') =
      ((splitLines nl p l).1 ++ (splitLines nl (splitLines nl p l).2 l').1,
        (splitLines nl (splitLines nl p l).2 l').2) := by
  induction l generalizing p with
  | nil => rfl
  | cons a l ih =>
    simp only [List.cons_append, splitLines]
    split
    · rw [ih]
      rfl
    · exact ih _

theorem readline_append_drop (nl : α) (l : List α) :
    readline nl l ++ l.drop (readline nl l).length = l := by
  induction l with
  | nil => rfl
  | cons a l ih =>
    rw [readline]
    split
    · rfl
    · exact congrArg (a :: ·) ih

theorem take_length_readline (l : List α) : l.take (readline nl l).length = readline nl l := by
  have h : (readline nl l ++ l.drop (readline nl l).length).take (readline nl l).length
      = readline nl l := List.take_left
  rwa [readline_append_drop] at h

theorem length_readline_le (nl : α) (l : List α) : (readline nl l).length ≤ l.length := by
  have h := congrArg List.length (readline_append_drop nl l)
  rw [List.length_append] at h
  omega

/-- What `readline` returns is one line when there is a newline. -/
theorem splitLines_readline {l : List α} (h : nl ∈ l) (p : List α) :
    splitLines nl p (readline nl l) = ([p ++ readline nl l], []) := by
  induction l generalizing p with
  | nil => exact absurd h List.not_mem_nil
  | cons a l ih =>
    by_cases ha : a = nl
    · simp [readline, splitLines, ha]
    · have hl : nl ∈ l := (List.mem_cons.mp h).resolve_left (Ne.symm ha)
      simp only [readline, splitLines, if_neg ha]
      rw [ih hl, List.append_assoc, List.singleton_append]

/-- A text with a newline begins with the line `readline` returns. -/
theorem splitLines_of_mem {l : List α} (h : nl ∈ l) :
    (splitLines nl [] l).1
      = readline nl l :: (splitLines nl [] (l.drop (readline nl l).length)).1 := by
  conv_lhs => rw [← readline_append_drop nl l]
  rw [splitLines_append, splitLines_readline h]
  rfl

theorem readline_eq_nil_iff {l : List α} : readline nl l = [] ↔ l = [] := by
  cases l with
  | nil => simp [readline]
  | cons a l =>
    simp only [readline]
    split <;> simp

/-! ## Lines that were ended one by one -/

/-- The text of some lines, each with its end. -/
def ended (nl : α) (lines : List (List α)) : List α := lines.flatMap (· ++ [nl])

omit [DecidableEq α] in
theorem ended_append (lines lines' : List (List α)) :
    ended nl (lines ++ lines') = ended nl lines ++ ended nl lines' := List.flatMap_append

/-- A line goes on until its end comes. -/
theorem splitLines_of_not_mem {line : List α} (h : nl ∉ line) (p l : List α) :
    splitLines nl p (line ++ l) = splitLines nl (p ++ line) l := by
  induction line generalizing p with
  | nil => simp
  | cons a line ih =>
    rw [List.mem_cons, not_or] at h
    rw [List.cons_append, splitLines, if_neg (Ne.symm h.1), ih h.2, List.append_assoc,
      List.singleton_append]

theorem splitLines_ended {lines : List (List α)} (h : ∀ line ∈ lines, nl ∉ line) :
    splitLines nl [] (ended nl lines) = (lines.map (· ++ [nl]), []) := by
  induction lines with
  | nil => rfl
  | cons line lines ih =>
    have hrest := ih fun line' hl => h line' (List.mem_cons_of_mem line hl)
    have hcons : ended nl (line :: lines) = line ++ (nl :: ended nl lines) := by simp [ended]
    rw [hcons, splitLines_of_not_mem (h line List.mem_cons_self), splitLines, if_pos rfl, hrest]
    rfl

/-- The pieces of a text between its ends, behind the beginning `p` of one. -/
def pieces {α : Type*} (isEnd : α → Bool) (p : List α) : List α → List (List α)
  | [] => if p.isEmpty then [] else [p]
  | a :: l => if isEnd a then p :: pieces isEnd [] l else pieces isEnd (p ++ [a]) l

omit [DecidableEq α] in
theorem pieces_of_forall {isEnd : α → Bool} {line : List α} (h : ∀ a ∈ line, isEnd a = false)
    (p l : List α) : pieces isEnd p (line ++ l) = pieces isEnd (p ++ line) l := by
  induction line generalizing p with
  | nil => simp
  | cons a line ih =>
    have ha : isEnd a = false := h a List.mem_cons_self
    rw [List.cons_append, pieces, ha, if_neg (by decide),
      ih fun b hb => h b (List.mem_cons_of_mem a hb), List.append_assoc, List.singleton_append]

omit [DecidableEq α] in
theorem pieces_ended {isEnd : α → Bool} (hnl : isEnd nl = true) {lines : List (List α)}
    (h : ∀ line ∈ lines, ∀ a ∈ line, isEnd a = false) :
    pieces isEnd [] (ended nl lines) = lines := by
  induction lines with
  | nil => rfl
  | cons line lines ih =>
    have hrest := ih fun line' hl => h line' (List.mem_cons_of_mem line hl)
    have hcons : ended nl (line :: lines) = line ++ (nl :: ended nl lines) := by simp [ended]
    rw [hcons, pieces_of_forall (h line List.mem_cons_self), pieces, if_pos hnl, hrest]
    rfl

end OtLab.Lib
