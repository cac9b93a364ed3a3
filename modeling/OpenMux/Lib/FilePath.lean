import OpenMux.Lib.PyText

/-!
# Paths without links

A directory is the list of the names that lead to it from the root. A path is followed from a directory name by name; a path that
begins with a slash is followed from the root. `descend` follows a path that must not leave the directory it starts from.
-/

namespace FilePath

open Py

abbrev Directory := List Text

/-- The names that a directory may be made of. -/
def IsName (c : Text) : Prop := c ≠ [] ∧ c ≠ ['.'] ∧ c ≠ ['.', '.'] ∧ '/' ∉ c

def components (path : Text) : List Text := Py.split '/' path.length path

/-- Follows one component. The root is its own parent. -/
def enter (dir : Directory) (c : Text) : Directory :=
  if c = [] ∨ c = ['.'] then dir else if c = ['.', '.'] then dir.dropLast else dir ++ [c]

def isAbsolute (path : Text) : Bool := path.head? = some '/'

/-- The place that a path leads to from a directory. -/
def resolve (dir : Directory) (path : Text) : Directory := (components path).foldl enter (if isAbsolute path then [] else dir)

/-- Follows components; `none` where they leave the directory. -/
def descend : Directory → List Text → Option Directory
  | dir, [] => some dir
  | dir, c :: cs =>
      if c = [] ∨ c = ['.'] then descend dir cs
      else if c = ['.', '.'] then if dir = [] then none else descend dir.dropLast cs
      else descend (dir ++ [c]) cs

variable {base dir place : Directory} {c : Text} {cs : List Text}

/-- What does not leave a directory leads to the same place below any other. -/
theorem foldl_enter_of_descend (h : descend dir cs = some place) : cs.foldl enter (base ++ dir) = base ++ place := by
  induction cs generalizing dir with
  | nil =>
      cases h
      rfl
  | cons c cs ih =>
      rw [descend] at h
      rw [List.foldl_cons, enter]
      split at h
      · rename_i hc
        rw [if_pos hc]
        exact ih h
      · rename_i hc
        rw [if_neg hc]
        split at h
        · rename_i hparent
          split at h
          · cases h
          · rename_i hne
            rw [if_pos hparent, List.dropLast_append_of_ne_nil hne]
            exact ih h
        · rename_i hparent
          rw [if_neg hparent, List.append_assoc]
          exact ih h

theorem mem_enter {d : Text} (h : d ∈ enter dir c) : d ∈ dir ∨ d = c := by
  unfold enter at h
  split at h
  · exact .inl h
  · split at h
    · exact .inl (List.mem_of_mem_dropLast h)
    · simpa using h

/-- A name is not entered that is not among the components. -/
theorem notMem_foldl_enter {d : Text} (hdir : d ∉ dir) (hcs : d ∉ cs) : d ∉ cs.foldl enter dir := by
  induction cs generalizing dir with
  | nil => exact hdir
  | cons c cs ih =>
      rw [List.mem_cons, not_or] at hcs
      exact ih (fun h => (mem_enter h).elim hdir hcs.1) hcs.2

/-- What leaves a directory does not come back to it, where its name is not among the components. -/
theorem notMem_of_descend_eq_none {d : Text} (hdir : d ∉ dir) (hcs : d ∉ cs) (h : descend dir cs = none) :
    d ∉ cs.foldl enter (d :: dir) := by
  induction cs generalizing dir with
  | nil => cases h
  | cons c cs ih =>
      have hne : d ≠ c := fun heq => hcs (heq ▸ List.mem_cons_self)
      have hcs' : d ∉ cs := fun hm => hcs (List.mem_cons_of_mem _ hm)
      rw [descend] at h
      rw [List.foldl_cons, enter]
      split at h
      · rename_i hc
        rw [if_pos hc]
        exact ih hdir hcs' h
      · rename_i hc
        rw [if_neg hc]
        split at h
        · rename_i hparent
          rw [if_pos hparent]
          by_cases hnil : dir = []
          · subst hnil
            exact notMem_foldl_enter (by simp) hcs'
          · rw [if_neg hnil] at h
            rw [List.dropLast_cons_of_ne_nil hnil]
            exact ih (fun hm => hdir (List.mem_of_mem_dropLast hm)) hcs' h
        · rename_i hparent
          rw [if_neg hparent, List.cons_append]
          apply ih _ hcs' h
          simpa using ⟨hdir, hne⟩

/-- A name that is not among some texts. -/
theorem exists_name (cs : List Text) : ∃ d, IsName d ∧ d ∉ cs := by
  refine ⟨List.replicate ((cs.map List.length).sum + 3) 'a', ⟨?_, ?_, ?_, ?_⟩, ?_⟩
  · simp [List.replicate_succ]
  · simp [List.replicate_succ]
  · simp [List.replicate_succ]
  · simp
  · intro hm
    have hle := List.single_le_sum (l := cs.map List.length) (fun _ _ => Nat.zero_le _) _ (List.mem_map_of_mem hm)
    rw [List.length_replicate] at hle
    omega

end FilePath
