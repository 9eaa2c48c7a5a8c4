import Lumos.Platform.GLShaderParse

/-!
# How `GLShader::Parse` ends

The loops go on behind the end mark of a word, so that without one they find the same word again. The
tokens behind a word are read by their place.
-/
namespace Lumos.Graphics.GLShader

open StringUtilities

variable {keyword str token t found search : Text} {mark : Char}

/-! ## Words -/

theorem strstr_spec (h : strstr search str = some found) : found <:+ str ∧ search <+: found := by
  induction str with
  | nil =>
    rw [strstr] at h
    split at h
    · next hnil =>
      obtain rfl := Option.some.inj h
      exact ⟨List.suffix_refl _, hnil ▸ List.nil_prefix⟩
    · cases h
  | cons c str ih =>
    rw [strstr] at h
    split at h
    · next hprefix =>
      obtain rfl := Option.some.inj h
      exact ⟨List.suffix_refl _, List.isPrefixOf_iff_prefix.mp hprefix⟩
    · obtain ⟨hsuffix, hprefix⟩ := ih h
      exact ⟨hsuffix.trans (List.suffix_cons c str), hprefix⟩

theorem findTokenFrom_spec {fuel : Nat} (h : findTokenFrom str token fuel t = some found) :
    found <:+ t ∧ token <+: found := by
  induction fuel generalizing t with
  | zero => cases h
  | succ fuel ih =>
    rw [findTokenFrom] at h
    split at h
    · cases h
    · next place hplace =>
      obtain ⟨hsuffix, hprefix⟩ := strstr_spec hplace
      dsimp only at h
      split at h
      · obtain rfl := Option.some.inj h
        exact ⟨hsuffix, hprefix⟩
      · obtain ⟨hsuffix', hprefix'⟩ := ih h
        exact ⟨(hsuffix'.trans (List.drop_suffix _ _)).trans hsuffix, hprefix'⟩

/-- The end mark of a word is behind the word. -/
theorem length_cut_lt (hkeyword : keyword.head? ≠ some mark) (hne : keyword ≠ []) (h : findToken str keyword = some token)
    {next : Text} (hcut : (cut mark token).2 = some next) : next.length < str.length := by
  obtain ⟨hsuffix, hprefix⟩ := findTokenFrom_spec h
  have hfound : strstr [mark] token = some next := by
    unfold cut at hcut
    split at hcut
    · cases hcut
    · next found hfound =>
      rw [hfound]
      exact hcut
  obtain ⟨hnext, hmark⟩ := strstr_spec hfound
  refine Nat.lt_of_lt_of_le (Nat.lt_of_le_of_ne hnext.length_le fun hlength => ?_) hsuffix.length_le
  obtain rfl := hnext.eq_of_length hlength
  obtain ⟨c, keyword, rfl⟩ := List.exists_cons_of_ne_nil hne
  obtain ⟨rest, rfl⟩ := hprefix
  obtain ⟨rest', hcons⟩ := hmark
  exact hkeyword (congrArg some (List.cons.inj hcons).1.symm)

/-- The words that are found, each with what is behind it, up to one that has no end mark. -/
def wordsFrom (keyword : Text) (mark : Char) : Nat → Text → List Text
  | 0, _ => []
  | fuel + 1, str =>
    match findToken str keyword with
    | none => []
    | some token => token :: ((cut mark token).2.elim [] (wordsFrom keyword mark fuel))

def words (keyword : Text) (mark : Char) (str : Text) : List Text := wordsFrom keyword mark (str.length + 1) str

namespace Uniforms

variable {parse : Text → Uniforms → Except Stop Uniforms} {u u' : Uniforms} {r : Except Stop Uniforms}

/-- What parsing the words one after the other comes to. Without an end mark there is no result. -/
def Follows (mark : Char) (parse : Text → Uniforms → Except Stop Uniforms) :
    List Text → Uniforms → Except Stop Uniforms → Prop
  | [], u, r => r = .ok u
  | token :: words, u, r =>
    match parse (cut mark token).1 u with
    | .error stop => r = .error stop
    | .ok u => (cut mark token).2.isSome ∧ Follows mark parse words u r

/-- The loop goes from word to word, and stays with a word that has no end mark. -/
theorem returns_scanBody_iff (I : Uniforms → Prop) (hkeyword : keyword.head? ≠ some mark) (hne : keyword ≠ [])
    (hagain : ∀ piece u u', I u → parse piece u = .ok u' → I u' ∧ ∃ u'', parse piece u' = .ok u'') (hu : I u) :
    Loop.Returns (scanBody keyword mark parse) (str, u) r ↔ Follows mark parse (words keyword mark str) u r := by
  have hall : ∀ fuel str u, str.length < fuel → I u → (Loop.Returns (scanBody keyword mark parse) (str, u) r ↔
      Follows mark parse (wordsFrom keyword mark fuel str) u r) := by
    intro fuel
    induction fuel with
    | zero => exact fun str u hlt => absurd hlt (Nat.not_lt_zero _)
    | succ fuel ih =>
      intro str u hlt hu
      rw [wordsFrom]
      cases htoken : findToken str keyword with
      | none => exact Loop.returns_leave_iff (by rw [scanBody, htoken])
      | some token =>
        dsimp only
        rw [Follows]
        cases hparse : parse (cut mark token).1 u with
        | error stop => exact Loop.returns_leave_iff (by rw [scanBody, htoken]; dsimp only; rw [hparse])
        | ok u' =>
          obtain ⟨hu', hnext⟩ := hagain _ u u' hu hparse
          cases hcut : (cut mark token).2 with
          | some next =>
            have hturn : Loop.Turn (scanBody keyword mark parse) (str, u) (next, u') := by
              rw [Loop.Turn, scanBody, htoken]
              dsimp only
              rw [hparse, hcut]
              rfl
            have hshort := length_cut_lt hkeyword hne htoken hcut
            rw [Loop.returns_turn_iff hturn, ih next u' (by omega) hu']
            simp
          | none =>
            refine iff_of_false ?_ fun h => Bool.false_ne_true h.1
            -- from here on the same word is parsed again and again
            refine Loop.not_returns (fun s => s.1 = str ∧ I s.2 ∧ ∃ v, parse (cut mark token).1 s.2 = .ok v) ?_
              ⟨rfl, hu, u', hparse⟩ r
            rintro ⟨str', v⟩ ⟨hstr, hv, v', hv'⟩
            refine ⟨(str, v'), ?_, rfl, hagain _ v v' hv hv'⟩
            rw [Loop.Turn, scanBody, show str' = str from hstr, htoken]
            dsimp only
            rw [hv', hcut]
            rfl
  exact hall _ str u (Nat.lt_succ_self _) hu

/-! ## Blocks -/

/-- The fields are two tokens each, up to a closing brace or to a bracket that is not closed. -/
def FieldsFit : List Text → Prop
  | [] => True
  | [type] => type = ['}']
  | type :: token :: tokens => type = ['}'] ∨ nameAndCount token = none ∨ FieldsFit tokens

/-- There is a bracket that is not closed. -/
def FieldsStop : List Text → Prop
  | [] | [_] => False
  | type :: token :: tokens => type ≠ ['}'] ∧ (nameAndCount token = none ∨ FieldsStop tokens)

theorem parseFields_spec (s : ShaderStruct) (tokens : List Text) :
    (parseFields s tokens ≠ .error .token ↔ FieldsFit tokens) ∧
      (parseFields s tokens = .error .other ↔ FieldsStop tokens) := by
  fun_induction parseFields s tokens with
  | case1 s => simp [FieldsFit, FieldsStop]
  | case2 s rest => cases rest <;> simp [FieldsFit, FieldsStop]
  | case3 s type hbrace => simp [FieldsFit, FieldsStop, hbrace]
  | case4 s type hbrace token rest hnone => simp [FieldsFit, FieldsStop, hbrace, hnone]
  | case5 s type hbrace token rest name count hsome ih =>
    rw [FieldsFit, FieldsStop]
    simpa [hbrace, hsome] using ih

theorem name_parseFields {s s' : ShaderStruct} {tokens : List Text} (h : parseFields s tokens = .ok s') :
    s'.name = s.name := by
  fun_induction parseFields s tokens with
  | case1 s => cases h; rfl
  | case2 s rest => cases h; rfl
  | case3 s type hbrace => cases h
  | case4 s type hbrace token rest hnone => cases h
  | case5 s type hbrace token rest name count hsome ih => exact ih h

/-- The tokens that are read of a block are there. -/
def BlockFits (tokens : List Text) : Prop := 2 ≤ tokens.length ∧ FieldsFit (tokens.drop 3)

def BlockStops (tokens : List Text) : Prop := 2 ≤ tokens.length ∧ FieldsStop (tokens.drop 3)

theorem tokenAt_of_lt {tokens : List Text} {index : Nat} (h : index < tokens.length) :
    tokenAt tokens index = .ok (tokens.getD index []) := by
  rw [tokenAt, List.getElem?_eq_getElem h, List.getD_eq_getElem?_getD, List.getElem?_eq_getElem h]
  rfl

theorem tokenAt_of_le {tokens : List Text} {index : Nat} (h : tokens.length ≤ index) :
    tokenAt tokens index = .error .token := by
  rw [tokenAt, List.getElem?_eq_none h]
  rfl

/-- What comes of a block, whatever there is already. -/
theorem parseUniformStruct_cases (block : Text) (u : Uniforms) :
    (parseUniformStruct block u = .error .token ∧ ¬ BlockFits (tokenize block)) ∨
    (parseUniformStruct block u = .error .other ∧ BlockFits (tokenize block) ∧ BlockStops (tokenize block)) ∨
    ∃ s : ShaderStruct, parseUniformStruct block u = .ok { u with structs := u.structs ++ [s] } ∧
      s.name = (tokenize block).getD 1 [] ∧ BlockFits (tokenize block) ∧ ¬ BlockStops (tokenize block) := by
  have hparse : parseUniformStruct block u = (tokenAt (tokenize block) 1).bind fun name =>
      (parseFields { name := name } ((tokenize block).drop 3)).bind fun s =>
        .ok { u with structs := u.structs ++ [s] } := rfl
  rcases Nat.lt_or_ge 1 (tokenize block).length with hlt | hle
  · obtain ⟨hfit, hstop⟩ := parseFields_spec { name := (tokenize block).getD 1 [] } ((tokenize block).drop 3)
    rw [tokenAt_of_lt hlt, Except.bind] at hparse
    rw [BlockFits, BlockStops, ← hfit, ← hstop]
    cases hfields : parseFields { name := (tokenize block).getD 1 [] } ((tokenize block).drop 3) with
    | error stop =>
      rw [hfields] at hparse
      cases stop with
      | token => exact Or.inl ⟨hparse, fun h => h.2 rfl⟩
      | other => exact Or.inr (Or.inl ⟨hparse, ⟨hlt, by simp⟩, hlt, rfl⟩)
    | ok s =>
      rw [hfields] at hparse
      exact Or.inr (Or.inr ⟨s, hparse, name_parseFields hfields, ⟨hlt, by simp⟩, fun h => by cases h.2⟩)
  · rw [tokenAt_of_le hle] at hparse
    exact Or.inl ⟨hparse, fun h => absurd h.1 (by omega)⟩

/-! ## Statements -/

/-- The names of the structs that have been declared. -/
def names (u : Uniforms) : List Text := u.structs.map ShaderStruct.name

/-- The structs are those from before, and no stage has lost its buffer. -/
structure Keeps (u u' : Uniforms) : Prop where
  structs : u'.structs = u.structs
  buffers : ∀ type, u.uniformBuffers type ≠ [] → u'.uniformBuffers type ≠ []

theorem Keeps.refl (u : Uniforms) : Keeps u u := ⟨rfl, fun _ => id⟩

theorem Keeps.trans {u'' : Uniforms} (h : Keeps u u') (h' : Keeps u' u'') : Keeps u u'' :=
  ⟨h'.structs.trans h.structs, fun type hne => h'.buffers type (h.buffers type hne)⟩

theorem names_eq_of_keeps (h : Keeps u u') : names u' = names u := by
  rw [names, h.structs, names]

variable {type : ShaderType} {typeString name : Text} {count : UInt32}

theorem findStruct_eq_none_iff : u.findStruct typeString = none ↔ typeString ∉ names u := by
  rw [findStruct, List.find?_eq_none, names, List.mem_map]
  simp

theorem keeps_pushUser (u : Uniforms) (type : ShaderType) (declaration : Declaration) :
    Keeps u (u.pushUser type declaration) := ⟨rfl, fun _ => id⟩

theorem exists_pushSystem (h : u.uniformBuffers type ≠ []) (declaration : Declaration) :
    ∃ u', u.pushSystem type declaration = .ok u' ∧ Keeps u u' := by
  obtain ⟨front, rest, hfront⟩ := List.exists_cons_of_ne_nil h
  unfold pushSystem
  rw [hfront]
  refine ⟨_, rfl, rfl, fun other hother => ?_⟩
  rcases eq_or_ne other type with rfl | hne
  · simp
  · simpa [hne] using hother

theorem exists_push (h : u.uniformBuffers type ≠ []) (declaration : Declaration) (name : Text) :
    ∃ u', (if isSystem name then u.pushSystem type declaration else .ok (u.pushUser type declaration)) = .ok u' ∧
      Keeps u u' := by
  split
  · exact exists_pushSystem h declaration
  · exact ⟨_, rfl, keeps_pushUser u type declaration⟩

theorem keeps_foldl_pushUser (ids : List Nat) (declaration : Nat → Declaration) (u : Uniforms) :
    Keeps u (ids.foldl (fun u id => u.pushUser type (declaration id)) u) := by
  induction ids generalizing u with
  | nil => exact Keeps.refl u
  | cons id ids ih => exact (keeps_pushUser u type _).trans (ih _)

/-- An element of a type that is known is declared. -/
theorem exists_declareElement (h : u.uniformBuffers type ≠ [])
    (hknown : stringToType typeString count = .NONE → typeString ∈ names u) (name : Text) :
    ∃ u', declareElement type typeString name count u = .ok u' ∧ Keeps u u' := by
  unfold declareElement
  split
  · next hnone =>
    split
    · next hstruct => exact absurd (hknown hnone) (findStruct_eq_none_iff.mp hstruct)
    · dsimp only
      split
      · exact exists_pushSystem h _
      · exact ⟨_, rfl, keeps_foldl_pushUser _ _ u⟩
  · exact exists_push h _ _

theorem exists_foldlM_parseElement (h : u.uniformBuffers type ≠ [])
    (hknown : stringToType typeString count = .NONE → typeString ∈ names u) (ids : List Nat) (name : Text) :
    ∃ name' u', ids.foldlM (parseElement type typeString count) (name, u) = .ok (name', u') ∧ Keeps u u' := by
  induction ids generalizing name u with
  | nil => exact ⟨name, u, rfl, Keeps.refl u⟩
  | cons id ids ih =>
    obtain ⟨u', hu', hkeeps⟩ := exists_declareElement h hknown (name ++ subscript id)
    obtain ⟨name'', u'', hrest, hkeeps'⟩ := ih (hkeeps.buffers type h) (by rwa [names_eq_of_keeps hkeeps])
      (if 9 < id then (name ++ subscript id).take ((name ++ subscript id).length - 4)
        else (name ++ subscript id).take ((name ++ subscript id).length - 3))
    refine ⟨name'', u'', ?_, hkeeps.trans hkeeps'⟩
    rw [List.foldlM_cons, parseElement]
    dsimp only
    rw [hu']
    exact hrest

/-- One of a type that is not known stops the run. -/
theorem foldlM_parseElement_eq_error (hnone : stringToType typeString count = .NONE) (hunknown : typeString ∉ names u)
    {ids : List Nat} (hids : ids ≠ []) (name : Text) :
    ids.foldlM (parseElement type typeString count) (name, u) = .error .other := by
  obtain ⟨id, ids, rfl⟩ := List.exists_cons_of_ne_nil hids
  have hdeclare : declareElement type typeString (name ++ subscript id) count u = .error .other := by
    rw [declareElement, hnone]
    dsimp only
    rw [findStruct_eq_none_iff.mpr hunknown]
  rw [List.foldlM_cons, parseElement]
  dsimp only
  rw [hdeclare]
  rfl

theorem exists_parseSingle (h : u.uniformBuffers type ≠ []) (typeString name : Text) (count : UInt32) :
    ∃ u', parseSingle type typeString name count u = .ok u' ∧ Keeps u u' := by
  unfold parseSingle
  dsimp only
  split
  · split
    · exact ⟨u, rfl, Keeps.refl u⟩
    · exact exists_push h _ _
  · exact exists_push h _ _

/-- The tokens that are read of a statement are there. -/
def StatementFits (tokens : List Text) : Prop := 3 ≤ tokens.length

/-- A bracket is not closed, or an array is of a struct that is not known. -/
def StatementStops (known tokens : List Text) : Prop :=
  nameAndCount (tokens.getD 2 []) = none ∨
  ∃ name count, nameAndCount (tokens.getD 2 []) = some (name, count) ∧ 1 < count ∧
    isTypeStringResource (tokens.getD 1 []) = false ∧ stringToType (tokens.getD 1 []) (.ofInt count) = .NONE ∧
      tokens.getD 1 [] ∉ known

theorem declareUniform_cases (h : u.uniformBuffers type ≠ []) (tokens : List Text) :
    (declareUniform type (tokens.getD 1 []) (tokens.getD 2 []) u = .error .other ∧ StatementStops (names u) tokens) ∨
    ∃ u', declareUniform type (tokens.getD 1 []) (tokens.getD 2 []) u = .ok u' ∧ Keeps u u' ∧
      ¬ StatementStops (names u) tokens := by
  unfold declareUniform
  cases hname : nameAndCount (tokens.getD 2 []) with
  | none => exact Or.inl ⟨rfl, Or.inl hname⟩
  | some nameCount =>
    obtain ⟨name, count⟩ := nameCount
    dsimp only
    have hstops : StatementStops (names u) tokens ↔ 1 < count ∧ isTypeStringResource (tokens.getD 1 []) = false ∧
        stringToType (tokens.getD 1 []) (.ofInt count) = .NONE ∧ tokens.getD 1 [] ∉ names u := by
      rw [StatementStops, hname]
      simp
    rw [hstops]
    by_cases hresource : isTypeStringResource (tokens.getD 1 [])
    · rw [if_pos hresource]
      exact Or.inr ⟨_, rfl, ⟨rfl, fun _ => id⟩, fun h => Bool.false_ne_true (h.2.1.symm.trans hresource)⟩
    · rw [if_neg hresource]
      by_cases hcount : 1 < count
      · rw [if_pos hcount]
        by_cases hknown : stringToType (tokens.getD 1 []) (.ofInt count) = .NONE → tokens.getD 1 [] ∈ names u
        · obtain ⟨name', u', hfold, hkeeps⟩ := exists_foldlM_parseElement h hknown (List.range count.toNat) name
          rw [hfold]
          exact Or.inr ⟨u', rfl, hkeeps, fun hstop => hstop.2.2.2 (hknown hstop.2.2.1)⟩
        · obtain ⟨hnone, hunknown⟩ := Classical.not_imp.mp hknown
          have hids : List.range count.toNat ≠ [] := by
            rw [ne_eq, List.range_eq_nil]
            omega
          rw [foldlM_parseElement_eq_error hnone hunknown hids]
          exact Or.inl ⟨rfl, hcount, eq_false_of_ne_true hresource, hnone, hunknown⟩
      · rw [if_neg hcount]
        obtain ⟨u', hu', hkeeps⟩ := exists_parseSingle h (tokens.getD 1 []) name (.ofInt count)
        exact Or.inr ⟨u', hu', hkeeps, fun hstop => hcount hstop.1⟩

/-- What comes of a statement. -/
theorem parseUniform_cases (h : u.uniformBuffers type ≠ []) (statement : Text) :
    (parseUniform type statement u = .error .token ∧ ¬ StatementFits (tokenize statement)) ∨
    (parseUniform type statement u = .error .other ∧ StatementFits (tokenize statement) ∧
      StatementStops (names u) (tokenize statement)) ∨
    ∃ u', parseUniform type statement u = .ok u' ∧ Keeps u u' ∧ StatementFits (tokenize statement) ∧
      ¬ StatementStops (names u) (tokenize statement) := by
  unfold parseUniform
  rcases Nat.lt_or_ge 2 (tokenize statement).length with hlt | hle
  · rw [tokenAt_of_lt (Nat.lt_of_succ_lt hlt), tokenAt_of_lt hlt]
    rcases declareUniform_cases h (tokenize statement) with ⟨hdeclare, hstop⟩ | ⟨u', hdeclare, hkeeps, hstop⟩
    · exact Or.inr (Or.inl ⟨hdeclare, hlt, hstop⟩)
    · exact Or.inr (Or.inr ⟨u', hdeclare, hkeeps, hlt, hstop⟩)
  · refine Or.inl ⟨?_, fun hfits => absurd hfits (by rw [StatementFits]; omega)⟩
    rcases Nat.lt_or_ge 1 (tokenize statement).length with hone | hzero
    · rw [tokenAt_of_lt hone, tokenAt_of_le hle]
      rfl
    · rw [tokenAt_of_le hzero]
      rfl

/-! ## All words -/

/-- Each word in turn has the tokens that are read, and either stops the run otherwise, or has an end mark and
what comes after it passes. -/
def BlocksPass (next : List Text → Prop) : List Text → List Text → Prop
  | known, [] => next known
  | known, token :: words =>
    let tokens := tokenize (cut '}' token).1
    BlockFits tokens ∧ (BlockStops tokens ∨
      (cut '}' token).2.isSome ∧ BlocksPass next (known ++ [tokens.getD 1 []]) words)

def StatementsPass (next : Prop) (known : List Text) : List Text → Prop
  | [] => next
  | token :: words =>
    let tokens := tokenize (cut ';' token).1
    StatementFits tokens ∧ (StatementStops known tokens ∨
      (cut ';' token).2.isSome ∧ StatementsPass next known words)

/-- The structs of all stages so far are known. -/
def Passes : List Text → List (ShaderType × Text) → Prop
  | _, [] => True
  | known, source :: sources =>
    BlocksPass (fun known => StatementsPass (Passes known sources) known
      (words "uniform".toList ';' (cString source.2))) known (words "struct".toList '}' (cString source.2))

def SafeFrom (u : Uniforms) (sources : List (ShaderType × Text)) : Prop :=
  ∃ fuel result, Uniforms.parse fuel sources u = some result ∧ result ≠ .error .token

/-- `Parse` comes to an end, and reads no token that is not there. -/
def Safe (sources : List (ShaderType × Text)) : Prop := SafeFrom {} sources

/-- A result that is no missing token, and after which `next` holds. -/
def Ends (next : Uniforms → Prop) : Except Stop Uniforms → Prop
  | .ok u => next u
  | .error stop => stop ≠ .token

theorem blocks_pass_iff {next : List Text → Prop} {after : Uniforms → Prop} (type : ShaderType)
    (hafter : ∀ u, u.uniformBuffers type ≠ [] → (after u ↔ next (names u))) (words : List Text) {u : Uniforms}
    (hu : u.uniformBuffers type ≠ []) :
    (∃ r, Follows '}' parseUniformStruct words u r ∧ Ends after r) ↔ BlocksPass next (names u) words := by
  induction words generalizing u with
  | nil => exact ⟨fun ⟨r, hr, hend⟩ => (hafter u hu).mp (by rwa [hr] at hend), fun h => ⟨_, rfl, (hafter u hu).mpr h⟩⟩
  | cons token words ih =>
    simp only [Follows, BlocksPass]
    rcases parseUniformStruct_cases (cut '}' token).1 u with ⟨hparse, hfit⟩ | ⟨hparse, hfit, hstop⟩ |
        ⟨s, hparse, hname, hfit, hstop⟩
    · rw [hparse]
      exact iff_of_false (fun ⟨r, hr, hend⟩ => by rw [hr] at hend; exact hend rfl) fun h => hfit h.1
    · rw [hparse]
      exact iff_of_true ⟨_, rfl, by simp [Ends]⟩ ⟨hfit, Or.inl hstop⟩
    · have hrest := @ih { u with structs := u.structs ++ [s] } hu
      have hnames : names { u with structs := u.structs ++ [s] } = names u ++ [(tokenize (cut '}' token).1).getD 1 []] := by
        rw [names, List.map_append, List.map_singleton, hname]
        rfl
      rw [hnames] at hrest
      rw [hparse]
      simp only [hfit, hstop, true_and, false_or, ← hrest]
      exact ⟨fun ⟨r, ⟨hclosed, hr⟩, hend⟩ => ⟨hclosed, r, hr, hend⟩, fun ⟨hclosed, r, hr, hend⟩ => ⟨r, ⟨hclosed, hr⟩, hend⟩⟩

theorem statements_pass_iff {next : Prop} {after : Uniforms → Prop} {known : List Text} {type : ShaderType}
    (hafter : ∀ u, u.uniformBuffers type ≠ [] → names u = known → (after u ↔ next)) (words : List Text) {u : Uniforms}
    (hu : u.uniformBuffers type ≠ []) (hknown : names u = known) :
    (∃ r, Follows ';' (parseUniform type) words u r ∧ Ends after r) ↔ StatementsPass next known words := by
  induction words generalizing u with
  | nil =>
    exact ⟨fun ⟨r, hr, hend⟩ => (hafter u hu hknown).mp (by rwa [hr] at hend),
      fun h => ⟨_, rfl, (hafter u hu hknown).mpr h⟩⟩
  | cons token words ih =>
    simp only [Follows, StatementsPass]
    have hcases := parseUniform_cases hu (cut ';' token).1
    rw [hknown] at hcases
    rcases hcases with ⟨hparse, hfit⟩ | ⟨hparse, hfit, hstop⟩ | ⟨u', hparse, hkeeps, hfit, hstop⟩
    · rw [hparse]
      exact iff_of_false (fun ⟨r, hr, hend⟩ => by rw [hr] at hend; exact hend rfl) fun h => hfit h.1
    · rw [hparse]
      exact iff_of_true ⟨_, rfl, by simp [Ends]⟩ ⟨hfit, Or.inl hstop⟩
    · have hrest := ih (hkeeps.buffers type hu) ((names_eq_of_keeps hkeeps).trans hknown)
      rw [hparse]
      simp only [hfit, hstop, true_and, false_or, ← hrest]
      exact ⟨fun ⟨r, ⟨hclosed, hr⟩, hend⟩ => ⟨hclosed, r, hr, hend⟩, fun ⟨hclosed, r, hr, hend⟩ => ⟨r, ⟨hclosed, hr⟩, hend⟩⟩

/-! ## All stages -/

theorem parseSource_mono {source : ShaderType × Text} {fuel more : Nat} (hmore : fuel ≤ more)
    (h : parseSource fuel u source = some r) : parseSource more u source = some r := by
  rw [parseSource] at h ⊢
  cases hblocks : Loop.run (scanBody "struct".toList '}' parseUniformStruct) fuel
      (cString source.2, u.beginStage source.1) with
  | none =>
    rw [hblocks] at h
    cases h
  | some r' =>
    rw [hblocks] at h
    rw [Loop.run_mono hmore hblocks]
    cases r' with
    | error stop => exact h
    | ok u' => exact Loop.run_mono hmore h

theorem parse_mono {sources : List (ShaderType × Text)} {fuel more : Nat} (hmore : fuel ≤ more)
    (h : Uniforms.parse fuel sources u = some r) : Uniforms.parse more sources u = some r := by
  induction sources generalizing u with
  | nil => exact h
  | cons source sources ih =>
    rw [Uniforms.parse] at h ⊢
    cases hsource : parseSource fuel u source with
    | none =>
      rw [hsource] at h
      cases h
    | some r' =>
      rw [hsource] at h
      rw [parseSource_mono hmore hsource]
      cases r' with
      | error stop => exact h
      | ok u' => exact ih h

/-- The two loops over the text of a stage. -/
theorem exists_parseSource_iff {source : ShaderType × Text} {next : Uniforms → Prop} :
    (∃ r, (∃ fuel, parseSource fuel u source = some r) ∧ Ends next r) ↔
      ∃ r, Loop.Returns (scanBody "struct".toList '}' parseUniformStruct)
          (cString source.2, u.beginStage source.1) r ∧
        Ends (fun u => ∃ r, Loop.Returns (scanBody "uniform".toList ';' (parseUniform source.1))
          (cString source.2, u) r ∧ Ends next r) r := by
  constructor
  · rintro ⟨r, ⟨fuel, h⟩, hend⟩
    rw [parseSource] at h
    cases hblocks : Loop.run (scanBody "struct".toList '}' parseUniformStruct) fuel
        (cString source.2, u.beginStage source.1) with
    | none =>
      rw [hblocks] at h
      cases h
    | some r' =>
      rw [hblocks] at h
      refine ⟨r', ⟨fuel, hblocks⟩, ?_⟩
      cases r' with
      | error stop =>
        obtain rfl := Option.some.inj h
        exact hend
      | ok u' => exact ⟨r, ⟨fuel, h⟩, hend⟩
  · rintro ⟨r', ⟨m, hblocks⟩, hend⟩
    cases r' with
    | error stop => exact ⟨.error stop, ⟨m, by rw [parseSource, hblocks]⟩, hend⟩
    | ok u' =>
      obtain ⟨r, ⟨n, hstatements⟩, hend⟩ := hend
      refine ⟨r, ⟨max m n, ?_⟩, hend⟩
      rw [parseSource, Loop.run_mono (Nat.le_max_left m n) hblocks]
      exact Loop.run_mono (Nat.le_max_right m n) hstatements

/-- One stage, and the others after it. -/
theorem safeFrom_cons_iff (u : Uniforms) (source : ShaderType × Text) (sources : List (ShaderType × Text)) :
    SafeFrom u (source :: sources) ↔
      ∃ r, (∃ fuel, parseSource fuel u source = some r) ∧ Ends (fun u => SafeFrom u sources) r := by
  constructor
  · rintro ⟨fuel, result, hparse, hresult⟩
    rw [Uniforms.parse] at hparse
    cases hsource : parseSource fuel u source with
    | none =>
      rw [hsource] at hparse
      cases hparse
    | some r =>
      rw [hsource] at hparse
      refine ⟨r, ⟨fuel, hsource⟩, ?_⟩
      cases r with
      | error stop =>
        obtain rfl := Option.some.inj hparse
        exact fun hstop => hresult (congrArg _ hstop)
      | ok u' => exact ⟨fuel, result, hparse, hresult⟩
  · rintro ⟨r, ⟨m, hsource⟩, hend⟩
    cases r with
    | error stop => exact ⟨m, .error stop, by rw [Uniforms.parse, hsource], fun h => hend (Except.error.inj h)⟩
    | ok u' =>
      obtain ⟨n, result, hparse, hresult⟩ := hend
      refine ⟨max m n, result, ?_, hresult⟩
      rw [Uniforms.parse, parseSource_mono (Nat.le_max_left m n) hsource]
      exact parse_mono (Nat.le_max_right m n) hparse

/-- A block parses again after it has been parsed. -/
theorem parseUniformStruct_again {piece : Text} (h : parseUniformStruct piece u = .ok u') :
    ∃ u'', parseUniformStruct piece u' = .ok u'' := by
  rcases parseUniformStruct_cases piece u with ⟨hparse, -⟩ | ⟨hparse, -⟩ | ⟨s, -, -, hfit, hstop⟩
  · rw [hparse] at h
    cases h
  · rw [hparse] at h
    cases h
  · rcases parseUniformStruct_cases piece u' with ⟨-, hfit'⟩ | ⟨-, -, hstop'⟩ | ⟨s, hparse, -⟩
    · exact absurd hfit hfit'
    · exact absurd hstop' hstop
    · exact ⟨_, hparse⟩

/-- A statement parses again after it has been parsed. -/
theorem parseUniform_again {type : ShaderType} {piece : Text} (hu : u.uniformBuffers type ≠ [])
    (h : parseUniform type piece u = .ok u') :
    u'.uniformBuffers type ≠ [] ∧ ∃ u'', parseUniform type piece u' = .ok u'' := by
  rcases parseUniform_cases hu piece with ⟨hparse, -⟩ | ⟨hparse, -⟩ | ⟨v, hparse, hkeeps, hfit, hstop⟩
  · rw [hparse] at h
    cases h
  · rw [hparse] at h
    cases h
  · rw [hparse] at h
    obtain rfl := Except.ok.inj h
    have hu' := hkeeps.buffers type hu
    refine ⟨hu', ?_⟩
    rcases parseUniform_cases hu' piece with ⟨-, hfit'⟩ | ⟨-, -, hstop'⟩ | ⟨u'', hparse', -⟩
    · exact absurd hfit hfit'
    · rw [names_eq_of_keeps hkeeps] at hstop'
      exact absurd hstop' hstop
    · exact ⟨u'', hparse'⟩

theorem safeFrom_iff_passes (u : Uniforms) (sources : List (ShaderType × Text)) :
    SafeFrom u sources ↔ Passes (names u) sources := by
  induction sources generalizing u with
  | nil => exact iff_of_true ⟨0, .ok u, rfl, fun h => by cases h⟩ trivial
  | cons source sources ih =>
    have hbegin : (u.beginStage source.1).uniformBuffers source.1 ≠ [] := by simp [beginStage]
    rw [safeFrom_cons_iff, exists_parseSource_iff, Passes, show names u = names (u.beginStage source.1) from rfl,
      ← blocks_pass_iff source.1 _ _ hbegin]
    · refine exists_congr fun r => and_congr_left fun _ => ?_
      exact returns_scanBody_iff (fun _ => True) (by decide) (by decide)
        (fun piece v v' _ hparse => ⟨trivial, parseUniformStruct_again hparse⟩) trivial
    · intro u hu
      have hafter : ∀ v, v.uniformBuffers source.1 ≠ [] → names v = names u →
          (SafeFrom v sources ↔ Passes (names u) sources) := fun v _ hv => by rw [ih v, hv]
      rw [← statements_pass_iff hafter _ hu rfl]
      refine exists_congr fun r => and_congr_left fun _ => ?_
      exact returns_scanBody_iff (fun u => u.uniformBuffers source.1 ≠ []) (by decide) (by decide)
        (fun piece v v' hv hparse => parseUniform_again hv hparse) hu

end Uniforms

end Lumos.Graphics.GLShader
