/-!
# Cutting text at a separator

`split sep cs` lists the pieces of `cs` between the occurrences of `sep`, be they characters or
bytes; a text without the separator is its own single piece, and no piece holds the separator
(`split_of_not_mem`, `not_mem_of_mem_split`). Cutting at one separator splits the list of pieces
there (`split_append_cons`), which is how the pieces of a joined path are read off.
-/

namespace DisplayTopology.Text

variable {α : Type} [DecidableEq α]

/-- The pieces of a text between the occurrences of `sep`. There is always at least one. -/
def split (sep : α) : List α → List (List α)
  | [] => [[]]
  | c :: cs =>
    if c = sep then [] :: split sep cs
    else match split sep cs with
      | [] => [[c]]
      | piece :: pieces => (c :: piece) :: pieces

@[simp] theorem split_nil (sep : α) : split sep [] = [[]] := rfl

@[simp] theorem split_ne_nil (sep : α) (cs : List α) : split sep cs ≠ [] := by
  cases cs with
  | nil => simp [split]
  | cons c cs =>
    rw [split]
    split
    · simp
    · split <;> simp

theorem split_cons_self (sep : α) (cs : List α) : split sep (sep :: cs) = [] :: split sep cs := by
  simp [split]

/-- Cutting a text that goes on after a separator. -/
theorem split_append_cons (sep : α) (as bs : List α) :
    split sep (as ++ sep :: bs) = split sep as ++ split sep bs := by
  induction as with
  | nil => simp [split]
  | cons a as ih =>
    by_cases h : a = sep
    · simp [split, h, ih]
    · rw [List.cons_append, split, if_neg h, ih, split, if_neg h]
      cases hs : split sep as with
      | nil => exact absurd hs (split_ne_nil sep as)
      | cons piece pieces => simp

/-- What is put in front of a text, without the separator, goes to its first piece. -/
theorem split_append_of_not_mem {sep : α} {as : List α} (h : sep ∉ as) (bs : List α) :
    split sep (as ++ bs) = (split sep bs).modifyHead (as ++ ·) := by
  induction as with
  | nil => cases hs : split sep bs <;> simp [hs]
  | cons a as ih =>
    obtain ⟨ha, has⟩ : sep ≠ a ∧ sep ∉ as := by simpa using h
    rw [List.cons_append, split, if_neg (Ne.symm ha), ih has]
    cases hs : split sep bs with
    | nil => exact absurd hs (split_ne_nil sep bs)
    | cons piece pieces => rfl

/-- Cutting a text is cutting the list of its characters. -/
theorem split_eq_splitOn (sep : α) (cs : List α) : split sep cs = cs.splitOn sep := by
  induction cs with
  | nil => rfl
  | cons c cs ih =>
    have hne : cs.splitOn sep ≠ [] := ih ▸ split_ne_nil sep cs
    rw [List.splitOn, List.splitOnP_cons_eq_if_modifyHead, ← List.splitOn, split, ih]
    by_cases h : c = sep
    · simp [h]
    · cases hs : cs.splitOn sep with
      | nil => exact absurd hs hne
      | cons piece pieces => simp [h]

theorem split_of_not_mem {sep : α} {cs : List α} (h : sep ∉ cs) : split sep cs = [cs] := by
  induction cs with
  | nil => rfl
  | cons c cs ih =>
    obtain ⟨hc, hcs⟩ : sep ≠ c ∧ sep ∉ cs := by simpa using h
    rw [split, if_neg (Ne.symm hc), ih hcs]

theorem not_mem_of_mem_split {sep : α} {cs piece : List α} (h : piece ∈ split sep cs) :
    sep ∉ piece := by
  induction cs generalizing piece with
  | nil => simp_all [split]
  | cons c cs ih =>
    rw [split] at h
    split at h
    · rcases List.mem_cons.1 h with rfl | h
      · simp
      · exact ih h
    · rename_i hc
      cases hs : split sep cs with
      | nil => exact absurd hs (split_ne_nil sep cs)
      | cons first pieces =>
        rw [hs] at h
        rcases List.mem_cons.1 h with rfl | h
        · have hf : first ∈ split sep cs := by simp [hs]
          simp [Ne.symm hc, ih hf]
        · exact ih (by simp [hs, h])

end DisplayTopology.Text
