import Mathlib.Data.List.AList
import Mathlib.Data.List.TakeWhile
import Lumos.Core.StringUtilities
import Lumos.Library.Writes

/-!
# `IniFile`

Keys and values that are kept in a text file, one pair on a line. The file is written as far
as the first null character, and carriage returns are lost when it is read.
-/
namespace Lumos.Utilities

open StringUtilities

/-! ## Text files -/

/-- `isspace` -/
def isspace (c : Char) : Bool := c ∈ [' ', '\t', '\n', '\x0b', '\x0c', '\r']

/-- `WriteTextFile`, which writes `strlen` characters. -/
def writeTextFile (text : Text) : Text := text.takeWhile (· ≠ '\x00')

def readTextFile (file : Text) : Text := file.filter (· ≠ '\r')

/-! ## Lines -/

def isValidLine (attributeLine : Text) : Bool :=
  match attributeLine with
  | [] => false
  | first :: _ =>
    if first = '#' ∨ first = ';' ∨ first = '[' then false
    else attributeLine.count '=' = 1

/-- Whether the buffer is the one for the value, and both of them. -/
structure Buffers where
  behind : Bool
  key : Text
  value : Text

def Buffers.push (b : Buffers) (c : Char) : Buffers :=
  if c = '=' then { b with behind := true }
  else if b.behind then { b with value := b.value ++ [c] }
  else { b with key := b.key ++ [c] }

def extractKeyAndValue (line : Text) : Σ _ : Text, Text :=
  let b := line.foldl Buffers.push ⟨false, [], []⟩
  ⟨b.key, b.value⟩

/-! ## The map -/

/-- `m_Data`. The order is the one in which it happens to be walked. -/
abbrev IniFile := AList fun _ : Text => Text

/-- What `Set` and `Add` are called with. -/
inductive Value where
  | bool (value : Bool)
  | string (value : Text)
  | integral (value : Int)

def Value.text : Value → Text
  | bool value => if value then "true".toList else "false".toList
  | string value => value
  | integral value => (toString value).toList

namespace IniFile

def isKeyExisting (ini : IniFile) (key : Text) : Bool := key ∈ ini

def registerPair (ini : IniFile) (pair : Σ _ : Text, Text) : IniFile := FirstWins.register ini pair

/-- The results of the operations say whether something was done. -/
def set (ini : IniFile) (key : Text) (value : Value) : Bool × IniFile :=
  if ini.isKeyExisting key then (true, AList.insert key value.text ini) else (false, ini)

def add (ini : IniFile) (key : Text) (value : Value) : Bool × IniFile :=
  if ini.isKeyExisting key then (false, ini) else (true, ini.registerPair ⟨key, value.text⟩)

def setOrAdd (ini : IniFile) (key : Text) (value : Value) : Bool × IniFile :=
  if ini.isKeyExisting key then ini.set key value else ini.add key value

def remove (ini : IniFile) (key : Text) : Bool × IniFile :=
  if ini.isKeyExisting key then (true, ini.erase key) else (false, ini)

/-! ## The file -/

def loadLine (ini : IniFile) (line : Text) : IniFile :=
  if isValidLine line then ini.registerPair (extractKeyAndValue (line.filter fun c => !isspace c)) else ini

def load (ini : IniFile) (file : Text) : IniFile := (getLines (readTextFile file)).foldl loadLine ini

def reload (file : Text) : IniFile := load ∅ file

/-- `key=value` and the end of the line. -/
def formatPair (pair : Σ _ : Text, Text) : Text := pair.1 ++ '=' :: pair.2 ++ ['\n']

/-- The file as it is then. -/
def rewrite (ini : IniFile) : Text := writeTextFile (ini.entries.flatMap formatPair)

end IniFile

/-! ## Operations -/

inductive Operation where
  | set (key : Text) (value : Value)
  | add (key : Text) (value : Value)
  | setOrAdd (key : Text) (value : Value)
  | remove (key : Text)

def Operation.apply (ini : IniFile) : Operation → IniFile
  | set key value => (ini.set key value).2
  | add key value => (ini.add key value).2
  | setOrAdd key value => (ini.setOrAdd key value).2
  | remove key => (ini.remove key).2

end Lumos.Utilities

/-!
# What is read back of an `IniFile`

Nothing that is read contains a space, an equals sign or a null character. Pairs without any of
them are written on lines of their own, and read back unless their line looks like a comment or
a section.
-/
namespace Lumos.Utilities

open StringUtilities

/-! ## Readable pairs -/

/-- Characters that come through. -/
def PlainChar (c : Char) : Prop := isspace c = false ∧ c ≠ '=' ∧ c ≠ '\x00'

instance (c : Char) : Decidable (PlainChar c) := inferInstanceAs (Decidable (_ ∧ _ ∧ _))

def Plain (text : Text) : Prop := ∀ c ∈ text, PlainChar c

instance (text : Text) : Decidable (Plain text) := List.decidableBAll PlainChar text

/-- Not the beginning of a comment or a section. -/
def Unmarked (key : Text) : Prop := ∀ first ∈ key.head?, ¬ (first = '#' ∨ first = ';' ∨ first = '[')

theorem unmarked_nil : Unmarked [] := by
  simp [Unmarked]

theorem unmarked_cons {first : Char} {key : Text} :
    ¬ (first = '#' ∨ first = ';' ∨ first = '[') ↔ Unmarked (first :: key) := by
  simp [Unmarked]

instance : (key : Text) → Decidable (Unmarked key)
  | [] => isTrue unmarked_nil
  | _ :: _ => decidable_of_iff _ unmarked_cons

def Readable (key value : Text) : Prop := Plain key ∧ Plain value ∧ Unmarked key

instance (key value : Text) : Decidable (Readable key value) := inferInstanceAs (Decidable (_ ∧ _ ∧ _))

/-- What a pair is written as, without the end of the line. -/
def line (pair : Σ _ : Text, Text) : Text := pair.1 ++ '=' :: pair.2

/-! ## Extracting -/

theorem foldl_push_key {key : Text} (h : ∀ c ∈ key, c ≠ '=') (front : Text) :
    key.foldl Buffers.push ⟨false, front, []⟩ = ⟨false, front ++ key, []⟩ := by
  induction key generalizing front with
  | nil => simp
  | cons c key ih =>
    rw [List.forall_mem_cons] at h
    have hpush : Buffers.push ⟨false, front, []⟩ c = ⟨false, front ++ [c], []⟩ := by simp [Buffers.push, h.1]
    rw [List.foldl_cons, hpush, ih h.2, List.append_assoc, List.singleton_append]

theorem foldl_push_value {value : Text} (h : ∀ c ∈ value, c ≠ '=') (key front : Text) :
    value.foldl Buffers.push ⟨true, key, front⟩ = ⟨true, key, front ++ value⟩ := by
  induction value generalizing front with
  | nil => simp
  | cons c value ih =>
    rw [List.forall_mem_cons] at h
    have hpush : Buffers.push ⟨true, key, front⟩ c = ⟨true, key, front ++ [c]⟩ := by simp [Buffers.push, h.1]
    rw [List.foldl_cons, hpush, ih h.2, List.append_assoc, List.singleton_append]

theorem extractKeyAndValue_line {pair : Σ _ : Text, Text} (hkey : Plain pair.1) (hvalue : Plain pair.2) :
    extractKeyAndValue (line pair) = pair := by
  have hequals : Buffers.push ⟨false, pair.1, []⟩ '=' = ⟨true, pair.1, []⟩ := rfl
  rw [extractKeyAndValue, line, List.foldl_append, foldl_push_key (fun c hc => (hkey c hc).2.1),
    List.nil_append, List.foldl_cons, hequals, foldl_push_value (fun c hc => (hvalue c hc).2.1)]
  rfl

/-- What is in the buffers was there or comes from the text, without the equals signs. -/
theorem mem_foldl_push {text : Text} {b : Buffers} {c : Char}
    (h : c ∈ (text.foldl Buffers.push b).key ∨ c ∈ (text.foldl Buffers.push b).value) :
    (c ∈ b.key ∨ c ∈ b.value) ∨ c ∈ text ∧ c ≠ '=' := by
  induction text generalizing b with
  | nil => exact Or.inl h
  | cons x text ih =>
    have hpush : (c ∈ (b.push x).key ∨ c ∈ (b.push x).value) → (c ∈ b.key ∨ c ∈ b.value) ∨ c = x ∧ c ≠ '=' := by
      intro h
      unfold Buffers.push at h
      split at h
      · exact Or.inl h
      · split at h <;> simp only [List.mem_append, List.mem_singleton] at h <;> grind
    rcases ih h with hold | ⟨hmem, hne⟩
    · rcases hpush hold with hold | ⟨rfl, hne⟩
      · exact Or.inl hold
      · exact Or.inr ⟨List.mem_cons_self, hne⟩
    · exact Or.inr ⟨List.mem_cons_of_mem _ hmem, hne⟩

theorem mem_extractKeyAndValue {text : Text} {c : Char}
    (h : c ∈ (extractKeyAndValue text).1 ∨ c ∈ (extractKeyAndValue text).2) : c ∈ text ∧ c ≠ '=' := by
  rcases mem_foldl_push h with hnil | hmem
  · simp at hnil
  · exact hmem

/-! ## Loading -/

/-- The pairs a file is read as. -/
def loadedPairs (file : Text) : List (Σ _ : Text, Text) :=
  ((getLines (readTextFile file)).filter isValidLine).map fun text =>
    extractKeyAndValue (text.filter fun c => !isspace c)

theorem load_eq (ini : IniFile) (file : Text) : ini.load file = (loadedPairs file).foldl FirstWins.register ini := by
  rw [IniFile.load, loadedPairs, List.foldl_map, List.foldl_filter]
  rfl

theorem lookup_reload (file key : Text) :
    (IniFile.reload file).lookup key = (loadedPairs file).dlookup key := by
  rw [IniFile.reload, load_eq, FirstWins.lookup_foldl_register, AList.lookup_empty, Option.none_or]

/-- Nothing else is ever read. -/
theorem plain_of_mem_loadedPairs {text : Text} {pair : Σ _ : Text, Text}
    (h : pair ∈ loadedPairs (writeTextFile text)) : Plain pair.1 ∧ Plain pair.2 := by
  obtain ⟨read, hread, rfl⟩ := List.mem_map.mp h
  have hplain : ∀ c, (c ∈ (extractKeyAndValue (read.filter fun c => !isspace c)).1 ∨
      c ∈ (extractKeyAndValue (read.filter fun c => !isspace c)).2) → PlainChar c := by
    intro c hc
    obtain ⟨hmem, hne⟩ := mem_extractKeyAndValue hc
    obtain ⟨hmem, hspace⟩ := List.mem_filter.mp hmem
    have hfile := mem_of_mem_splitString (List.mem_filter.mp hread).1 hmem
    have hnull := List.mem_takeWhile_imp (List.mem_filter.mp hfile).1
    exact ⟨by simpa using hspace, hne, by simpa using hnull⟩
  exact ⟨fun c hc => hplain c (Or.inl hc), fun c hc => hplain c (Or.inr hc)⟩

/-! ## Plain pairs -/

def PlainPairs (pairs : List (Σ _ : Text, Text)) : Prop := ∀ pair ∈ pairs, Plain pair.1 ∧ Plain pair.2

theorem not_mem_delimiters_of_plainChar {c : Char} (h : PlainChar c) : c ≠ '\n' ∧ c ≠ '\r' := by
  constructor <;> rintro rfl <;> exact absurd h.1 (by decide)

theorem mem_line {pair : Σ _ : Text, Text} (hkey : Plain pair.1) (hvalue : Plain pair.2) {c : Char}
    (h : c ∈ line pair) : PlainChar c ∨ c = '=' := by
  rcases List.mem_append.mp h with hmem | hmem
  · exact Or.inl (hkey c hmem)
  · rcases List.mem_cons.mp hmem with rfl | hmem
    · exact Or.inr rfl
    · exact Or.inl (hvalue c hmem)

theorem isspace_line {pair : Σ _ : Text, Text} (hkey : Plain pair.1) (hvalue : Plain pair.2) {c : Char}
    (h : c ∈ line pair) : isspace c = false := by
  rcases mem_line hkey hvalue h with hplain | rfl
  · exact hplain.1
  · decide

/-- The text of plain pairs is written and read unchanged. -/
theorem readTextFile_rewrite {ini : IniFile} (h : PlainPairs ini.entries) :
    readTextFile ini.rewrite = ini.entries.flatMap IniFile.formatPair := by
  have hchar : ∀ c ∈ ini.entries.flatMap IniFile.formatPair, c ≠ '\x00' ∧ c ≠ '\r' := by
    intro c hc
    obtain ⟨pair, hpair, hc⟩ := List.mem_flatMap.mp hc
    have hline : c ∈ line pair ∨ c = '\n' := by simpa [IniFile.formatPair, line, or_assoc] using hc
    rcases hline with hline | rfl
    · rcases mem_line (h pair hpair).1 (h pair hpair).2 hline with hplain | rfl
      · exact ⟨hplain.2.2, (not_mem_delimiters_of_plainChar hplain).2⟩
      · decide
    · decide
  rw [readTextFile, IniFile.rewrite, writeTextFile, List.takeWhile_eq_self_iff.mpr, List.filter_eq_self.mpr]
  · intro c hc
    simpa using (hchar c hc).2
  · intro c hc
    simpa using (hchar c hc).1

theorem getLines_formatPairs {pairs : List (Σ _ : Text, Text)} (h : PlainPairs pairs) :
    getLines (pairs.flatMap IniFile.formatPair) = pairs.map line := by
  induction pairs with
  | nil => exact splitString_nil
  | cons pair pairs ih =>
    have hpair := h pair List.mem_cons_self
    have hformat : IniFile.formatPair pair ++ pairs.flatMap IniFile.formatPair =
        line pair ++ '\n' :: pairs.flatMap IniFile.formatPair := by simp [IniFile.formatPair, line]
    have hne : line pair ≠ [] := by simp [line]
    have hnewline : ∀ c ∈ line pair, c ∉ ['\n'] := by
      intro c hc hmem
      rw [List.mem_singleton] at hmem
      rw [hmem] at hc
      exact absurd (isspace_line hpair.1 hpair.2 hc) (by decide)
    rw [List.flatMap_cons, hformat, getLines, splitString_token_cons hne hnewline _ (List.mem_singleton_self _),
      List.map_cons]
    exact congrArg (line pair :: ·) (ih fun p hp => h p (List.mem_cons_of_mem _ hp))

/-- The line of a plain pair is read unless it is taken for a comment or a section. -/
theorem isValidLine_line {pair : Σ _ : Text, Text} (hkey : Plain pair.1) (hvalue : Plain pair.2) :
    isValidLine (line pair) = decide (Unmarked pair.1) := by
  have hcountKey : pair.1.count '=' = 0 := List.count_eq_zero.mpr fun hmem => (hkey _ hmem).2.1 rfl
  have hcountValue : pair.2.count '=' = 0 := List.count_eq_zero.mpr fun hmem => (hvalue _ hmem).2.1 rfl
  have hcount : (line pair).count '=' = 1 := by simp [line, hcountKey, hcountValue]
  obtain ⟨key, value⟩ := pair
  cases key with
  | nil =>
    simpa [line, isValidLine, unmarked_nil] using hcountValue
  | cons first key =>
    rw [line, List.cons_append] at hcount ⊢
    rw [isValidLine, hcount]
    by_cases hfirst : first = '#' ∨ first = ';' ∨ first = '['
    · simp [← unmarked_cons, hfirst]
    · simp [← unmarked_cons, hfirst]

/-- What plain pairs are read as. -/
theorem loadedPairs_rewrite {ini : IniFile} (h : PlainPairs ini.entries) :
    loadedPairs ini.rewrite = ini.entries.filter fun pair => decide (Unmarked pair.1) := by
  have hvalid : (ini.entries.map line).filter isValidLine =
      (ini.entries.filter fun pair => decide (Unmarked pair.1)).map line := by
    have hkept : ini.entries.filter (isValidLine ∘ line) = ini.entries.filter fun pair => decide (Unmarked pair.1) :=
      List.filter_congr fun pair hpair => isValidLine_line (h pair hpair).1 (h pair hpair).2
    rw [List.filter_map, hkept]
  have hread : ∀ pair ∈ ini.entries, extractKeyAndValue ((line pair).filter fun c => !isspace c) = pair := by
    intro pair hpair
    have hspace : (line pair).filter (fun c => !isspace c) = line pair := by
      rw [List.filter_eq_self]
      intro c hc
      rw [isspace_line (h pair hpair).1 (h pair hpair).2 hc]
      rfl
    rw [hspace, extractKeyAndValue_line (h pair hpair).1 (h pair hpair).2]
  rw [loadedPairs, readTextFile_rewrite h, getLines_formatPairs h, hvalid, List.map_map]
  calc (ini.entries.filter fun pair => decide (Unmarked pair.1)).map
        ((fun text => extractKeyAndValue (text.filter fun c => !isspace c)) ∘ line)
      = (ini.entries.filter fun pair => decide (Unmarked pair.1)).map id := by
        apply List.map_congr_left
        intro pair hpair
        exact hread pair (List.mem_filter.mp hpair).1
    _ = ini.entries.filter fun pair => decide (Unmarked pair.1) := List.map_id _

/-! ## Round trips -/

/-- The map is read back from its own file. -/
def RoundTrips (ini : IniFile) : Prop := ∀ key, (IniFile.reload ini.rewrite).lookup key = ini.lookup key

theorem mem_entries_iff {ini : IniFile} {key value : Text} :
    (⟨key, value⟩ : Σ _ : Text, Text) ∈ ini.entries ↔ ini.lookup key = some value := AList.mem_lookup_iff.symm

/-- Whatever is read back is plain. -/
theorem RoundTrips.plainPairs {ini : IniFile} (h : RoundTrips ini) : PlainPairs ini.entries := by
  intro pair hpair
  have hlookup := h pair.1
  rw [mem_entries_iff.mp hpair, lookup_reload] at hlookup
  exact plain_of_mem_loadedPairs (List.of_mem_dlookup hlookup)

theorem rewrite_reload_iff {ini : IniFile} :
    RoundTrips ini ↔ ∀ key value, ini.lookup key = some value → Readable key value := by
  constructor
  · intro h key value hvalue
    have hplain := h.plainPairs
    have hread := h key
    rw [lookup_reload, loadedPairs_rewrite hplain, hvalue] at hread
    have hmem := List.mem_filter.mp (List.of_mem_dlookup hread)
    have hpair := hplain _ hmem.1
    exact ⟨hpair.1, hpair.2, of_decide_eq_true hmem.2⟩
  · intro h key
    have hreadable : ∀ pair ∈ ini.entries, Readable pair.1 pair.2 := fun pair hpair =>
      h pair.1 pair.2 (mem_entries_iff.mp hpair)
    have hplain : PlainPairs ini.entries := fun pair hpair => ⟨(hreadable pair hpair).1, (hreadable pair hpair).2.1⟩
    have hfilter : (ini.entries.filter fun pair => decide (Unmarked pair.1)) = ini.entries := by
      rw [List.filter_eq_self]
      intro pair hpair
      exact decide_eq_true (hreadable pair hpair).2.2
    rw [lookup_reload, loadedPairs_rewrite hplain, hfilter]
    rfl

/-- After any operations on the map of any file, and in whichever order the map is walked, the
map is read back from its own file exactly when all of its pairs are readable. -/
theorem reload_rewrite_iff (file : Text) (operations : List Operation) (ini : IniFile)
    (h : ini.entries.Perm (operations.foldl Operation.apply (IniFile.reload file)).entries) :
    (∀ key, (IniFile.reload ini.rewrite).lookup key =
        (operations.foldl Operation.apply (IniFile.reload file)).lookup key) ↔
      ∀ key value, (operations.foldl Operation.apply (IniFile.reload file)).lookup key = some value →
        Readable key value := by
  have hlookup : ∀ key, ini.lookup key = (operations.foldl Operation.apply (IniFile.reload file)).lookup key :=
    fun key => AList.perm_lookup h
  simp only [← hlookup]
  exact rewrite_reload_iff

theorem reload_rewrite_volume :
    (IniFile.reload (IniFile.rewrite (AList.singleton "volume".toList "3".toList))).lookup "volume".toList =
      ([Operation.add "volume".toList (.integral 3)].foldl Operation.apply (IniFile.reload [])).lookup
        "volume".toList := by
  have hreadable : ∀ pair ∈ ([Operation.add "volume".toList (.integral 3)].foldl Operation.apply
      (IniFile.reload [])).entries, Readable pair.1 pair.2 := by decide
  apply (reload_rewrite_iff _ _ (AList.singleton "volume".toList "3".toList) (by decide)).mpr
  intro key value hlookup
  exact hreadable ⟨key, value⟩ (mem_entries_iff.mpr hlookup)

/-- A space within a value is lost. -/
theorem reload_rewrite_title :
    ¬ ∀ key, (IniFile.reload (IniFile.rewrite (AList.singleton "title".toList "a b".toList))).lookup key =
        ([Operation.add "title".toList (.string "a b".toList)].foldl Operation.apply (IniFile.reload [])).lookup key := by
  intro h
  exact absurd (h "title".toList) (by decide)

end Lumos.Utilities
