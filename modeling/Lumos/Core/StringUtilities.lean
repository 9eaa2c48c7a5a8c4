/-!
# `StringUtilities`

A string is cut at every one of the delimiters, and empty tokens are left out.
-/
namespace Lumos.StringUtilities

/-- `std::string` -/
abbrev Text := List Char

def splitString (string delimiters : Text) : List Text :=
  (string.splitOnP (· ∈ delimiters)).filter (fun token => !token.isEmpty)

def getLines (string : Text) : List Text := splitString string ['\n']

variable {delimiters : Text}

@[simp] theorem splitString_nil : splitString [] delimiters = [] := by simp [splitString]

/-- A delimiter parts what is before it from what is behind it. -/
theorem splitString_append_cons (front back : Text) {delimiter : Char} (h : delimiter ∈ delimiters) :
    splitString (front ++ delimiter :: back) delimiters =
      splitString front delimiters ++ splitString back delimiters := by
  rw [splitString, List.splitOnP_append_cons front back (by simpa using h), List.filter_append]
  rfl

theorem splitString_cons (back : Text) {delimiter : Char} (h : delimiter ∈ delimiters) :
    splitString (delimiter :: back) delimiters = splitString back delimiters := by
  simpa using splitString_append_cons [] back h

/-- A text without delimiters is one token. -/
theorem splitString_of_forall_not_mem {token : Text} (hne : token ≠ []) (h : ∀ c ∈ token, c ∉ delimiters) :
    splitString token delimiters = [token] := by
  rw [splitString, List.splitOnP_eq_singleton (by simpa using h)]
  simp [hne]

theorem splitString_token_cons {token : Text} (hne : token ≠ []) (h : ∀ c ∈ token, c ∉ delimiters) (back : Text)
    {delimiter : Char} (hdelimiter : delimiter ∈ delimiters) :
    splitString (token ++ delimiter :: back) delimiters = token :: splitString back delimiters := by
  rw [splitString_append_cons token back hdelimiter, splitString_of_forall_not_mem hne h]
  rfl

theorem mem_of_mem_splitOnP {p : Char → Bool} {string token : Text} (h : token ∈ string.splitOnP p) {c : Char}
    (hc : c ∈ token) : c ∈ string := by
  induction string generalizing token with
  | nil =>
    rw [List.splitOnP_nil, List.mem_singleton] at h
    rwa [h] at hc
  | cons x xs ih =>
    obtain ⟨first, rest, hxs⟩ := List.exists_cons_of_ne_nil (List.splitOnP_ne_nil p xs)
    rw [List.splitOnP_cons_eq_if_modifyHead, hxs] at h
    rw [hxs] at ih
    split at h
    · rcases List.mem_cons.mp h with rfl | hmem
      · cases hc
      · exact List.mem_cons_of_mem _ (ih hmem hc)
    · rcases List.mem_cons.mp h with rfl | hmem
      · rcases List.mem_cons.mp hc with rfl | hfirst
        · exact List.mem_cons_self
        · exact List.mem_cons_of_mem _ (ih List.mem_cons_self hfirst)
      · exact List.mem_cons_of_mem _ (ih (List.mem_cons_of_mem _ hmem) hc)

/-- Tokens are made of what is in the text. -/
theorem mem_of_mem_splitString {string token : Text} (h : token ∈ splitString string delimiters) {c : Char}
    (hc : c ∈ token) : c ∈ string := mem_of_mem_splitOnP (List.mem_filter.mp h).1 hc

end Lumos.StringUtilities
