import Mathlib.Logic.Function.Basic
import Lumos.Core.StringUtilities
import Lumos.Library.Latch

/-!
# `GLShader`: taking a shader apart

The lines of a shader and of the files it includes are sorted by stage. The current stage and
whether lines are being skipped are kept in variables that outlive the shader.
-/
namespace Lumos.Graphics.GLShader

open StringUtilities Latch

/-! ## Strings -/

/-- `StringUtilities::StartsWith` -/
def startsWith (string start : Text) : Bool := start.isPrefixOf string

/-- `StringUtilities::StringContains` -/
def stringContains (string chars : Text) : Bool :=
  match string with
  | [] => chars.isEmpty
  | c :: rest => chars.isPrefixOf (c :: rest) || stringContains rest chars

/-- `StringUtilities::StringReplace` of a character by nothing. What comes after a character
that is taken out is not looked at. -/
def stringReplace (ch : Char) : Text → Text
  | [] => []
  | [c] => if c = ch then [] else [c]
  | c :: d :: str => if c = ch then d :: stringReplace ch str else c :: stringReplace ch (d :: str)

/-- `file.erase(file.find(rem), rem.length())` -/
def erase (rem : Text) : Text → Text
  | [] => []
  | c :: str => if rem.isPrefixOf (c :: str) then (c :: str).drop rem.length else c :: erase rem str

/-- What `strstr` sees. -/
def cString (str : Text) : Text := str.takeWhile (· ≠ '\x00')

/-- What is left of a line without the directive and without quotation marks. -/
def argument (rem str : Text) : Option Text :=
  if stringContains (cString str) rem then some (stringReplace '"' (erase rem str)) else none

/-! ## Lines -/

inductive ShaderType where
  | vertex | fragment | geometry | tessellationControl | tessellationEvaluation | compute | unknown
  deriving DecidableEq

inductive Directive where
  | shader (str : Text)
  | includeFile (file : Option Text)
  | condition (text : Option Text)
  | none

/-- Which branch a line that is not skipped is handled in. -/
def directive (str : Text) : Directive :=
  if startsWith str "#shader".toList then .shader str
  else if startsWith str "#include".toList then .includeFile (argument "#include ".toList str)
  else if startsWith str "#if".toList then .condition (argument "#if ".toList str)
  else .none

/-- The stage that a `#shader` line names. `unknown` is that it ends one. -/
def stage (str : Text) : Option ShaderType :=
  if stringContains str "vertex".toList then some .vertex
  else if stringContains str "geometry".toList then some .geometry
  else if stringContains str "fragment".toList then some .fragment
  else if stringContains str "tess_cont".toList then some .tessellationControl
  else if stringContains str "tess_eval".toList then some .tessellationEvaluation
  else if stringContains str "compute".toList then some .compute
  else if stringContains str "end".toList then some .unknown
  else none

abbrev Sources := ShaderType → Option Text

structure State where
  /-- `s_Type` -/
  type : ShaderType
  /-- `IGNORE_LINES` -/
  ignoreLines : Bool
  shaders : Sources

namespace State

/-- A stage that is in the map already keeps its text. -/
def setType (s : State) (type : ShaderType) : State :=
  { s with
    type := type
    shaders :=
      if type = .unknown ∨ (s.shaders type).isSome then s.shaders else Function.update s.shaders type (some []) }

/-- `shaders->at(s_Type).append`, which throws where there is no such stage. -/
def append (s : State) (line : Text) : Option State :=
  if s.type = .unknown then some s
  else (s.shaders s.type).map fun text =>
    { s with shaders := Function.update s.shaders s.type (some (text ++ line)) }

end State

section Reader

-- What is in the files. Nothing can be read from a path that is not resolved.
variable (files : Text → Option Text)

/-- A line, given how the lines of a file that is included are read. -/
def readLine (readLines : List Text → State → Option State) (s : State) (line : Text) : Option State :=
  let str := stringReplace '\t' line
  if s.ignoreLines then
    some (if startsWith str "#end".toList then { s with ignoreLines := false } else s)
  else
    match directive str with
    | .shader str => some ((stage str).elim s s.setType)
    | .includeFile file => file.elim (some s) fun file => (files file).bind fun text => readLines (getLines text) s
    | .condition text => some (if text = some ['0'] then { s with ignoreLines := true } else s)
    | .none => s.append line

/-- `ReadShaderFile`. As many calls can be open, one inside the other, as there is room for. -/
def readShaderFile : Nat → List Text → State → Option State
  | 0 => fun _ _ => none
  | depth + 1 => fun lines s => lines.foldlM (readLine files (readShaderFile depth)) s

end Reader

/-! ## Shaders -/

structure Statics where
  type : ShaderType
  ignoreLines : Bool
  deriving DecidableEq

/-- As the program starts. -/
def Statics.fresh : Statics := ⟨.unknown, false⟩

/-- The text of a shader, and what is in the files when it is loaded. -/
structure Load where
  source : Text
  files : Text → Option Text

variable (depth : Nat)

def preProcess (v : Statics) (load : Load) : Option (Sources × Statics) :=
  let v := { v with type := .unknown }
  (readShaderFile load.files depth (getLines load.source) ⟨v.type, v.ignoreLines, fun _ => none⟩).map fun s =>
    (s.shaders, ⟨s.type, s.ignoreLines⟩)

/-- The map from stages to sources. -/
def sources (v : Statics) (load : Load) : Option Sources := (preProcess depth v load).map Prod.fst

/-- Shaders are loaded one after the other. -/
def loads (history : List Load) (v : Statics) : Option Statics :=
  history.foldlM (fun v load => (preProcess depth v load).map Prod.snd) v

/-! ## What is left open -/

/-- The line ends what is skipped. -/
def IsEnd (line : Text) : Prop := startsWith (stringReplace '\t' line) "#end".toList = true

/-- The line, or a file it includes, has an `#if 0` that is not ended in there. -/
def Opens (files : Text → Option Text) : Nat → Text → Prop
  | 0, _ => False
  | depth + 1, line =>
    match directive (stringReplace '\t' line) with
    | .condition text => text = some ['0']
    | .includeFile (some file) => ∃ text, files file = some text ∧ Latched (Opens files depth) IsEnd (getLines text)
    | _ => False

/-- The text of a shader leaves an `#if 0` open. -/
def LeavesOpen (load : Load) : Prop := Latched (Opens load.files depth) IsEnd (getLines load.source)

def Closes (load : Load) : Prop := ∃ line ∈ getLines load.source, IsEnd line

/-- An `#if 0` has no `#end` behind it, neither where it is nor in a shader that is loaded later. -/
def LeftOpen (history : List Load) : Prop := Latched (LeavesOpen depth) Closes history

/-! ## One line -/

section

variable {depth : Nat} {files : Text → Option Text}

theorem second_of_startsWith {str rest : Text} {c : Char} (h : startsWith str ('#' :: c :: rest) = true) :
    str[1]? = some c := by
  obtain ⟨behind, rfl⟩ := List.isPrefixOf_iff_prefix.mp h
  rfl

/-- A line that starts like another directive does not end what is skipped. -/
theorem not_isEnd_of_startsWith {line rest : Text} {c : Char} (hc : c ≠ 'e')
    (h : startsWith (stringReplace '\t' line) ('#' :: c :: rest) = true) : ¬ IsEnd line := by
  intro hend
  have he : (stringReplace '\t' line)[1]? = some 'e' := second_of_startsWith hend
  rw [second_of_startsWith h] at he
  exact hc (Option.some.inj he)

theorem startsWith_of_condition {str : Text} {text : Option Text} (h : directive str = .condition text) :
    startsWith str "#if".toList = true := by
  unfold directive at h
  split at h
  · cases h
  · split at h
    · cases h
    · split at h
      · assumption
      · cases h

theorem startsWith_of_include {str : Text} {file : Option Text} (h : directive str = .includeFile file) :
    startsWith str "#include".toList = true := by
  unfold directive at h
  split at h
  · cases h
  · split at h
    · assumption
    · split at h
      · cases h
      · cases h

theorem opens_of_condition {line : Text} {text : Option Text}
    (h : directive (stringReplace '\t' line) = .condition text) :
    Opens files (depth + 1) line ↔ text = some ['0'] := by
  rw [Opens, h]

theorem opens_of_include {line file : Text} (h : directive (stringReplace '\t' line) = .includeFile (some file)) :
    Opens files (depth + 1) line ↔
      ∃ text, files file = some text ∧ Latched (Opens files depth) IsEnd (getLines text) := by
  rw [Opens, h]

theorem Opens.not_isEnd {line : Text} (h : Opens files (depth + 1) line) : ¬ IsEnd line := by
  cases hline : directive (stringReplace '\t' line) with
  | shader str => simp [Opens, hline] at h
  | includeFile file => exact not_isEnd_of_startsWith (by decide) (startsWith_of_include hline)
  | condition text => exact not_isEnd_of_startsWith (by decide) (startsWith_of_condition hline)
  | none => simp [Opens, hline] at h

@[simp] theorem State.setType_ignoreLines (s : State) (type : ShaderType) :
    (s.setType type).ignoreLines = s.ignoreLines := rfl

theorem State.append_ignoreLines {s t : State} {line : Text} (h : s.append line = some t) :
    t.ignoreLines = s.ignoreLines := by
  unfold State.append at h
  split at h
  · cases h
    rfl
  · obtain ⟨text, -, rfl⟩ := Option.map_eq_some_iff.mp h
    rfl

/-- Where lines are skipped, only their end matters. -/
theorem readLine_skipped {readLines : List Text → State → Option State} {s t : State} {line : Text}
    (hs : s.ignoreLines = true) (h : readLine files readLines s line = some t) :
    t.ignoreLines = true ↔ ¬ IsEnd line := by
  rw [readLine, if_pos hs, Option.some.injEq] at h
  subst h
  unfold IsEnd
  split <;> simp_all

/-- What a line that is not skipped does to the flag, given what an included file does. -/
theorem readLine_live {readLines : List Text → State → Option State}
    (hread : ∀ lines s t, readLines lines s = some t →
      (t.ignoreLines = true ↔ Latched (Opens files depth) IsEnd lines ∨
        s.ignoreLines = true ∧ ∀ line ∈ lines, ¬ IsEnd line))
    {s t : State} {line : Text} (hs : s.ignoreLines = false) (h : readLine files readLines s line = some t) :
    t.ignoreLines = true ↔ Opens files (depth + 1) line := by
  rw [readLine, if_neg (by simp [hs])] at h
  cases hline : directive (stringReplace '\t' line) with
  | shader str =>
    rw [hline] at h
    simp only [Opens, hline]
    change some ((stage str).elim s s.setType) = some t at h
    cases hstage : stage str with
    | none =>
      rw [hstage] at h
      cases h
      simp [hs]
    | some type =>
      rw [hstage] at h
      cases h
      simp [hs]
  | includeFile file =>
    rw [hline] at h
    cases file with
    | none =>
      cases h
      simp [Opens, hline, hs]
    | some file =>
      obtain ⟨text, htext, hlines⟩ := Option.bind_eq_some_iff.mp h
      rw [hread _ _ _ hlines, opens_of_include hline]
      simp [htext, hs]
  | condition text =>
    rw [hline] at h
    cases h
    rw [opens_of_condition hline]
    split <;> simp_all
  | none =>
    rw [hline] at h
    rw [State.append_ignoreLines h]
    simp [Opens, hline, hs]

/-- A file that is read leaves lines skipped if it leaves an `#if 0` open, or if they were
skipped before and it has no `#end`. -/
theorem readShaderFile_ignoreLines (lines : List Text) {s t : State}
    (h : readShaderFile files depth lines s = some t) :
    t.ignoreLines = true ↔ Latched (Opens files depth) IsEnd lines ∨
      s.ignoreLines = true ∧ ∀ line ∈ lines, ¬ IsEnd line := by
  induction depth generalizing lines s t with
  | zero => cases h
  | succ depth ih =>
    refine flag_foldlM (fun s => s.ignoreLines = true) ?_ lines h
    intro s line t hline
    cases hs : s.ignoreLines with
    | false =>
      rw [readLine_live (fun lines _ _ => ih lines) hs hline]
      simp
    | true =>
      rw [readLine_skipped hs hline]
      have : Opens files (depth + 1) line → ¬ IsEnd line := Opens.not_isEnd
      tauto

end

/-! ## One shader after the other -/

variable {depth : Nat} {history : List Load} {v w : Statics}

theorem preProcess_ignoreLines {load : Load} (h : (preProcess depth v load).map Prod.snd = some w) :
    w.ignoreLines = true ↔ LeavesOpen depth load ∨ v.ignoreLines = true ∧ ¬ Closes load := by
  obtain ⟨read, hread, rfl⟩ := Option.map_eq_some_iff.mp h
  obtain ⟨s, hs, rfl⟩ := Option.map_eq_some_iff.mp hread
  rw [readShaderFile_ignoreLines _ hs]
  simp [LeavesOpen, Closes]

theorem loads_ignoreLines (h : loads depth history v = some w) :
    w.ignoreLines = true ↔ LeftOpen depth history ∨ v.ignoreLines = true ∧ ∀ load ∈ history, ¬ Closes load :=
  flag_foldlM (fun v => v.ignoreLines = true) (fun _ _ _ => preProcess_ignoreLines) history h

/-- The stage that was left behind does not matter. -/
theorem sources_congr (h : v.ignoreLines = w.ignoreLines) (load : Load) :
    sources depth v load = sources depth w load := by
  unfold sources preProcess
  rw [h]

/-- Where no file can be opened no shader has been loaded. -/
theorem depth_pos_of_leftOpen (h : loads depth history v = some w) (hopen : LeftOpen depth history) : 0 < depth := by
  cases depth with
  | zero =>
    cases history with
    | nil => exact hopen.elim
    | cons load history => cases h
  | succ depth => exact depth.succ_pos

/-- A shader of one line. -/
def emptyVertexShader : Load := ⟨"#shader vertex".toList, fun _ => none⟩

theorem emptyVertexShader_skipped (hv : v.ignoreLines = true) :
    sources (depth + 1) v emptyVertexShader ≠ sources (depth + 1) .fresh emptyVertexShader := by
  rw [sources_congr (w := ⟨.unknown, true⟩) hv]
  intro h
  have hmap := congrArg (Option.map fun shaders => shaders .vertex) h
  cases hmap

/-- What is loaded next gets the map it would get as the first shader of all, whatever it is,
just when no `#if 0` has been left open. -/
theorem own_text_iff (h : loads depth history .fresh = some v) :
    (∀ load, sources depth v load = sources depth .fresh load) ↔ ¬ LeftOpen depth history := by
  have hv : v.ignoreLines = true ↔ LeftOpen depth history := by
    rw [loads_ignoreLines h]
    simp [Statics.fresh]
  constructor
  · intro hown hopen
    obtain ⟨d, rfl⟩ := Nat.exists_eq_add_one.mpr (depth_pos_of_leftOpen h hopen)
    exact emptyVertexShader_skipped (hv.mpr hopen) (hown emptyVertexShader)
  · intro hclosed load
    have hfalse : v.ignoreLines = false := Bool.eq_false_iff.mpr fun htrue => hclosed (hv.mp htrue)
    exact sources_congr hfalse load

/-- A shader whose last stage is commented out. -/
def commentedOut : Load := ⟨"#shader vertex\nv\n#if 0\n#shader fragment\nf".toList, fun _ => none⟩

def twoStages : Load := ⟨"#shader vertex\na\n#shader fragment\nb".toList, fun _ => none⟩

/-- The shader that is loaded behind it has no stages. -/
theorem twoStages_silenced :
    loads 1 [commentedOut] .fresh = some ⟨.vertex, true⟩ ∧
      (sources 1 .fresh twoStages).map (fun shaders => shaders .fragment) = some (some "b".toList) ∧
      (sources 1 ⟨.vertex, true⟩ twoStages).map (fun shaders => shaders .fragment) = some none := by
  decide

theorem twoStages_own_text :
    (∀ load, sources 1 ⟨.fragment, false⟩ load = sources 1 .fresh load) ↔ ¬ LeftOpen 1 [twoStages] :=
  own_text_iff (by decide)

end Lumos.Graphics.GLShader
