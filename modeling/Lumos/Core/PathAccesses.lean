import Mathlib
import Lumos.Core.VFS

/-!
# What resolving a path reads

The first directory of a path is taken from the list of its components, which has none for
slashes only. What is behind it is taken from the path itself, as if two slashes stood before
it.
-/
namespace Lumos.Core.VFS

open StringUtilities

/-- Reads that are out of bounds. -/
inductive Fault where
  /-- `dirs.front()` of no components. -/
  | frontOfEmpty
  /-- `path.substr` from beyond the end. -/
  | substrBeyondEnd
  deriving DecidableEq

/-- `ResolvePhysicalPath`, with the reads it makes. -/
def resolveReading (v : VFS) (fileExists : Text → Bool) (path : Text) : Except Fault (Option Text) :=
  if path.getD 0 '\x00' ≠ '/' ∧ path.getD 1 '\x00' ≠ '/' then .ok (checked fileExists path)
  else
    match splitString path ['/', '/'] with
    | [] => .error .frontOfEmpty
    | virtualDir :: _ =>
      if v.roots virtualDir = [] then .ok (checked fileExists path)
      else if path.length < virtualDir.length + 2 then .error .substrBeyondEnd
      else
        let remainder := path.drop (virtualDir.length + 2)
        .ok (((v.roots virtualDir).map fun physicalPath => physicalPath ++ '/' :: remainder).find? fileExists)

/-- The first component: what is between the slashes in front and the next one. -/
def firstComponent (path : Text) : Text := (path.dropWhile (· == '/')).takeWhile (· != '/')

variable {v : VFS} {fileExists : Text → Bool} {path : Text}

/-- Without faults it is the result of `resolvePhysicalPath`. -/
theorem resolvePhysicalPath_of_ok {result : Option Text} (h : v.resolveReading fileExists path = .ok result) :
    v.resolvePhysicalPath fileExists path = result := by
  unfold resolveReading at h
  unfold resolvePhysicalPath
  split
  · next hplain =>
    rw [if_pos hplain] at h
    exact Except.ok.inj h
  · next hplain =>
    rw [if_neg hplain] at h
    cases hdirs : splitString path ['/', '/'] with
    | nil =>
      rw [hdirs] at h
      cases h
    | cons virtualDir rest =>
      simp only [hdirs] at h ⊢
      split at h
      · next hroots =>
        rw [if_pos hroots]
        exact Except.ok.inj h
      · next hroots =>
        rw [if_neg hroots]
        split at h
        · cases h
        · exact Except.ok.inj h

/-- A text that begins without a delimiter begins with a token. -/
theorem head?_splitString_of_ne {c : Char} (hc : c ≠ '/') (rest : Text) :
    (splitString (c :: rest) ['/', '/']).head? = some ((c :: rest).takeWhile (· != '/')) := by
  have htoken : (c :: rest).takeWhile (· != '/') ≠ [] := by simp [hc]
  have hnone : ∀ x ∈ (c :: rest).takeWhile (· != '/'), x ∉ ['/', '/'] := by
    intro x hx
    simpa using List.all_eq_true.mp List.all_takeWhile x hx
  have hsplit := List.takeWhile_append_dropWhile (p := (· != '/')) (l := c :: rest)
  cases hback : (c :: rest).dropWhile (· != '/') with
  | nil =>
    rw [hback, List.append_nil] at hsplit
    rw [hsplit] at htoken hnone ⊢
    rw [splitString_of_forall_not_mem htoken hnone]
    rfl
  | cons delimiter back =>
    have hdelimiter : delimiter = '/' := by
      have hhead := List.head?_dropWhile_not (· != '/') (c :: rest)
      rw [hback] at hhead
      simpa using hhead
    rw [hback, hdelimiter] at hsplit
    conv_lhs => rw [← hsplit]
    rw [splitString_token_cons htoken hnone back (by simp)]
    rfl

/-- The first directory, where the path is not of slashes only. -/
theorem head?_splitString (path : Text) :
    (splitString path ['/', '/']).head? =
      if ∃ c ∈ path, c ≠ '/' then some (firstComponent path) else none := by
  induction path with
  | nil => simp
  | cons c rest ih =>
    by_cases hc : c = '/'
    · subst hc
      rw [splitString_cons rest (by simp), ih]
      simp [firstComponent]
    · rw [head?_splitString_of_ne hc, if_pos ⟨c, List.mem_cons_self, hc⟩]
      simp [firstComponent, hc]

end Lumos.Core.VFS
