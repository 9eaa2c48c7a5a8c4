import Lumos.Library.Loop
import Lumos.Library.MaximalRuns
import Lumos.Platform.GLShader

/-!
# The loops of `StringUtilities`

`SplitString` goes from one delimiter to the next. `StringReplace` without a replacement takes characters
out of the string that it goes through.
-/
namespace Lumos.StringUtilities

variable {string delimiters : Text} {start stop : Nat}

/-! ## `SplitString` -/

/-- `find_first_of`, with `none` for `npos`. -/
def findFirstOf (string delimiters : Text) (pos : Nat) : Option Nat :=
  ((string.drop pos).findIdx? (· ∈ delimiters)).map (pos + ·)

/-- `substr`, which throws where `pos` is behind the end. -/
def substr (string : Text) (pos : Nat) (count : Option Nat) : Option Text :=
  if pos ≤ string.length then some (count.elim id List.take (string.drop pos)) else none

/-- The variables of `SplitString`. -/
structure Splitting where
  start : Nat
  stop : Option Nat
  result : List Text
  deriving DecidableEq

def splitBegin (string delimiters : Text) : Splitting := ⟨0, findFirstOf string delimiters 0, []⟩

/-- One turn: the token up to the next delimiter, and on behind that if there is one. -/
def splitBody (string delimiters : Text) : Loop.Body Splitting (List Text) := fun s => do
  let token ← substr string s.start (s.stop.map (· - s.start))
  let result := if token.isEmpty then s.result else s.result ++ [token]
  match s.stop with
  | none => return .inr result
  | some stop => return .inl ⟨stop + 1, findFirstOf string delimiters (stop + 1), result⟩

theorem findFirstOf_of_free (h : ∀ c ∈ string.drop start, c ∉ delimiters) :
    findFirstOf string delimiters start = none := by
  rw [findFirstOf, List.findIdx?_eq_none_iff.mpr (by simpa using h)]
  rfl

theorem findFirstOf_append_cons {before token back : Text} {c : Char} (htoken : ∀ d ∈ token, d ∉ delimiters)
    (hc : c ∈ delimiters) :
    findFirstOf (before ++ (token ++ c :: back)) delimiters before.length = some (before.length + token.length) := by
  rw [findFirstOf, List.drop_left, List.findIdx?_append, List.findIdx?_eq_none_iff.mpr (by simpa using htoken)]
  simp [List.findIdx?_cons, hc]

theorem substr_append (before rest : Text) (count : Option Nat) :
    substr (before ++ rest) before.length count = some (count.elim id List.take rest) := by
  rw [substr, if_pos (by simp), List.drop_left]

theorem push_eq (result : List Text) (token : Text) :
    (if token.isEmpty then result else result ++ [token]) = result ++ [token].filter fun token => !token.isEmpty := by
  cases token <;> simp

theorem splitString_of_free {token : Text} (h : ∀ c ∈ token, c ∉ delimiters) :
    splitString token delimiters = [token].filter fun token => !token.isEmpty := by
  rw [splitString, List.splitOnP_eq_singleton (by simpa using h)]

/-- What the loop comes to from behind a delimiter, or from the beginning. -/
theorem returns_splitBody_iff (before rest : Text) (result : List Text) {tokens : List Text} :
    Loop.Returns (splitBody (before ++ rest) delimiters)
        ⟨before.length, findFirstOf (before ++ rest) delimiters before.length, result⟩ tokens ↔
      tokens = result ++ splitString rest delimiters := by
  induction hlength : rest.length using Nat.strongRecOn generalizing before rest result with
  | ind n ih =>
    cases hfind : rest.find? (· ∈ delimiters) with
    | none =>
      have hfree : ∀ c ∈ rest, c ∉ delimiters := fun c hc => by simpa using List.find?_eq_none.mp hfind c hc
      rw [findFirstOf_of_free (by rwa [List.drop_left]), splitString_of_free hfree, ← push_eq]
      refine Loop.returns_leave_iff ?_
      rw [splitBody, Option.map_none, substr_append]
      rfl
    | some c =>
      obtain ⟨hc, token, back, rfl, htoken⟩ := List.find?_eq_some_iff_append.mp hfind
      have hfree : ∀ d ∈ token, d ∉ delimiters := fun d hd => by simpa using htoken d hd
      have hdelimiter : c ∈ delimiters := by simpa using hc
      have hturn : Loop.Turn (splitBody (before ++ (token ++ c :: back)) delimiters)
          ⟨before.length, some (before.length + token.length), result⟩
          ⟨before.length + token.length + 1,
            findFirstOf (before ++ (token ++ c :: back)) delimiters (before.length + token.length + 1),
            result ++ [token].filter fun token => !token.isEmpty⟩ := by
        rw [Loop.Turn, splitBody, Option.map_some, Nat.add_sub_cancel_left, substr_append, Option.elim_some,
          List.take_left, ← push_eq]
        rfl
      have hwhole : before ++ (token ++ c :: back) = (before ++ token ++ [c]) ++ back := by simp
      have hstart : before.length + token.length + 1 = (before ++ token ++ [c]).length := by simp [Nat.add_assoc]
      rw [findFirstOf_append_cons hfree hdelimiter, Loop.returns_turn_iff hturn, hwhole, hstart,
        ih back.length (by rw [← hlength, List.length_append, List.length_cons]; omega) _ _ _ rfl,
        splitString_append_cons token back hdelimiter, splitString_of_free hfree, List.append_assoc]

/-- `SplitString` returns the runs of characters that are no delimiters, in their order. -/
theorem splitString_lists (string delimiters : Text) : ∃ tokens runs,
    Loop.Returns (splitBody string delimiters) (splitBegin string delimiters) tokens ∧
      MaximalRuns.Lists (· ∈ delimiters) string runs tokens := by
  obtain ⟨runs, hruns⟩ := MaximalRuns.exists_lists (· ∈ delimiters) string
  exact ⟨splitString string delimiters, runs, (returns_splitBody_iff [] string []).mpr rfl, hruns⟩

/-! ## `StringReplace` -/

/-- One turn, with the index and the string. The index is an `int`, and the function is not defined where it
overflows. -/
def replaceBody (ch : Char) : Loop.Body (Nat × Text) Text := fun (i, str) =>
  if i < str.length then
    let str := if str[i]? = some ch then str.take i ++ str.drop (i + 1) else str
    if i + 1 < 2 ^ 31 then some (.inl (i + 1, str)) else none
  else some (.inr str)

open Graphics.GLShader

variable {ch : Char} {str : Text}

/-- How often the loop turns. The character behind one that is taken out gets no turn of its own. -/
def turns (ch : Char) : Text → Nat
  | [] => 0
  | [_] => 1
  | c :: d :: str => (if c = ch then turns ch str else turns ch (d :: str)) + 1

theorem replaceBody_cons (done : Text) (c : Char) (rest : Text) :
    replaceBody ch (done.length, done ++ c :: rest) =
      if done.length + 1 < 2 ^ 31 then some (.inl (done.length + 1, done ++ if c = ch then rest else c :: rest))
      else none := by
  have hlt : done.length < (done ++ c :: rest).length := by simp
  have hget : (done ++ c :: rest)[done.length]? = some c := by simp
  rw [replaceBody, if_pos hlt, hget]
  dsimp only
  congr 4
  by_cases hc : c = ch
  · simp [hc, List.drop_append]
  · simp [hc]

theorem returns_replaceBody_cons (done : Text) (c : Char) (rest : Text) {result : Text} :
    Loop.Returns (replaceBody ch) (done.length, done ++ c :: rest) result ↔
      done.length + 1 < 2 ^ 31 ∧
        Loop.Returns (replaceBody ch) (done.length + 1, done ++ if c = ch then rest else c :: rest) result := by
  have hbody : replaceBody ch (done.length, done ++ c :: rest) = _ := replaceBody_cons done c rest
  by_cases hlt : done.length + 1 < 2 ^ 31
  · rw [if_pos hlt] at hbody
    rw [Loop.returns_turn_iff hbody, and_iff_right hlt]
  · rw [if_neg hlt] at hbody
    exact iff_of_false (fun h => h.ne_none .refl hbody) fun h => hlt h.1

theorem returns_replaceBody_end {i : Nat} {str result : Text} (h : str.length ≤ i) :
    Loop.Returns (replaceBody ch) (i, str) result ↔ result = str :=
  Loop.returns_leave_iff (by rw [replaceBody, if_neg (Nat.not_lt_of_le h)])

/-- One turn more than those that are still to come. -/
theorem and_turns_iff {returns right : Prop} {n turns bound : Nat}
    (h : n + 1 < bound → (returns ↔ right ∧ n + 1 + turns < bound)) :
    n + 1 < bound ∧ returns ↔ right ∧ n + (turns + 1) < bound := by
  constructor
  · rintro ⟨hlt, hreturns⟩
    obtain ⟨hright, hturns⟩ := (h hlt).mp hreturns
    exact ⟨hright, by omega⟩
  · rintro ⟨hright, hturns⟩
    have hlt : n + 1 < bound := by omega
    exact ⟨hlt, (h hlt).mpr ⟨hright, by omega⟩⟩

/-- What the loop comes to from behind `done`, which does not change any more. -/
theorem returns_replaceBody_iff (done rest : Text) (h : done.length < 2 ^ 31) {result : Text} :
    Loop.Returns (replaceBody ch) (done.length, done ++ rest) result ↔
      result = done ++ stringReplace ch rest ∧ done.length + turns ch rest < 2 ^ 31 := by
  fun_induction stringReplace ch rest generalizing done with
  | case1 =>
    rw [List.append_nil, returns_replaceBody_end (Nat.le_refl _)]
    exact (and_iff_left h).symm
  | case2 =>
    rw [returns_replaceBody_cons, if_pos rfl, List.append_nil, returns_replaceBody_end (Nat.le_succ _)]
    exact and_comm
  | case3 c hc =>
    rw [returns_replaceBody_cons, if_neg hc, returns_replaceBody_end (by simp)]
    exact and_comm
  | case4 d str ih =>
    rw [returns_replaceBody_cons, if_pos rfl]
    have hnext := ih (done ++ [d])
    rw [List.length_append, List.length_singleton, List.append_assoc, List.append_assoc] at hnext
    rw [turns, if_pos rfl]
    exact and_turns_iff hnext
  | case5 c d str hc ih =>
    rw [returns_replaceBody_cons, if_neg hc]
    have hnext := ih (done ++ [c])
    rw [List.length_append, List.length_singleton, List.append_assoc, List.append_assoc] at hnext
    rw [turns, if_neg hc]
    exact and_turns_iff hnext

/-- No two characters next to each other are both this one. -/
def Apart (ch : Char) (str : Text) : Prop := str.IsChain fun c d => ¬ (c = ch ∧ d = ch)

theorem apart_cons_cons {c d : Char} : Apart ch (c :: d :: str) ↔ ¬ (c = ch ∧ d = ch) ∧ Apart ch (d :: str) :=
  List.isChain_cons_cons

theorem apart_cons_of_ne {c : Char} (hc : c ≠ ch) : Apart ch (c :: str) ↔ Apart ch str := by
  cases str with
  | nil => simp [Apart]
  | cons d str => simp [apart_cons_cons, hc]

/-- What is left of the string has at least what should be left of it. -/
theorem length_filter_le (ch : Char) (str : Text) :
    (str.filter (· ≠ ch)).length ≤ (stringReplace ch str).length := by
  fun_induction stringReplace ch str with
  | case1 => exact Nat.le_refl 0
  | case2 => simp
  | case3 c hc => simp [hc]
  | case4 d str ih =>
    rw [List.filter_cons_of_neg (by simp), List.filter_cons, List.length_cons]
    split
    · exact Nat.succ_le_succ ih
    · exact Nat.le_succ_of_le ih
  | case5 c d str hc ih =>
    rw [List.filter_cons_of_pos (by simpa using hc)]
    exact Nat.succ_le_succ ih

theorem stringReplace_eq_filter_iff (ch : Char) (str : Text) :
    stringReplace ch str = str.filter (· ≠ ch) ↔ Apart ch str := by
  fun_induction stringReplace ch str with
  | case1 => simp [Apart]
  | case2 => simp [Apart]
  | case3 c hc => simp [Apart, hc]
  | case4 d str ih =>
    rw [List.filter_cons_of_neg (by simp), apart_cons_cons]
    by_cases hd : d = ch
    · -- the second of two is kept
      refine iff_of_false (fun h => ?_) fun h => h.1 ⟨rfl, hd⟩
      have hlength := congrArg List.length h
      rw [List.filter_cons_of_neg (by simpa using hd), List.length_cons] at hlength
      exact absurd (length_filter_le ch str) (by omega)
    · rw [List.filter_cons_of_pos (by simpa using hd), List.cons.injEq, and_iff_right rfl, ih, apart_cons_of_ne hd]
      exact (and_iff_right fun h => hd h.2).symm
  | case5 c d str hc ih =>
    rw [List.filter_cons_of_pos (by simpa using hc), List.cons.injEq, and_iff_right rfl, ih, apart_cons_of_ne hc]

/-- With the last character taken out, the index goes one place behind the end. -/
theorem turns_of_apart (h : Apart ch str) :
    turns ch str = (str.filter (· ≠ ch)).length + if str.getLast? = some ch then 1 else 0 := by
  fun_induction turns ch str with
  | case1 => rfl
  | case2 c => by_cases hc : c = ch <;> simp [hc]
  | case3 c d str ih ih' =>
    obtain ⟨hboth, hrest⟩ := apart_cons_cons.mp h
    rw [List.getLast?_cons_cons]
    by_cases hc : c = ch
    · have hd : d ≠ ch := fun hd => hboth ⟨hc, hd⟩
      have hlast : (d :: str).getLast? = some ch ↔ str.getLast? = some ch := by
        cases str with
        | nil => simp [hd]
        | cons e str => rw [List.getLast?_cons_cons]
      rw [if_pos hc, ih ((apart_cons_of_ne hd).mp hrest), List.filter_cons_of_neg (by simpa using hc),
        List.filter_cons_of_pos (by simpa using hd), List.length_cons]
      simp only [hlast]
      omega
    · have hfilter : (c :: d :: str).filter (· ≠ ch) = c :: (d :: str).filter (· ≠ ch) :=
        List.filter_cons_of_pos (by simpa using hc)
      rw [if_neg hc, ih' hrest, hfilter, List.length_cons]
      omega

/-- `StringReplace` takes out all of these characters exactly when no two of them are next to each other and the
index does not overflow. -/
theorem replaceBody_returns_filter_iff (ch : Char) (str : Text) :
    Loop.Returns (replaceBody ch) (0, str) (str.filter (· ≠ ch)) ↔ Apart ch str ∧
      (str.filter (· ≠ ch)).length + (if str.getLast? = some ch then 1 else 0) < 2 ^ 31 := by
  have hreturns : Loop.Returns (replaceBody ch) (0, str) (str.filter (· ≠ ch)) ↔
      str.filter (· ≠ ch) = stringReplace ch str ∧ 0 + turns ch str < 2 ^ 31 :=
    returns_replaceBody_iff [] str (by decide)
  rw [hreturns, Nat.zero_add, eq_comm, stringReplace_eq_filter_iff]
  refine and_congr_right fun h => ?_
  rw [turns_of_apart h]

/-- The second of two tabulators stays. -/
theorem tabs_not_replaced : ¬ Loop.Returns (replaceBody '\t') (0, "\t\tx".toList) ("\t\tx".toList.filter (· ≠ '\t')) := by
  intro h
  have hreturns : Loop.Returns (replaceBody '\t') (0, "\t\tx".toList) "\tx".toList := ⟨3, by decide +kernel⟩
  exact absurd (h.unique hreturns) (by decide)

end Lumos.StringUtilities
