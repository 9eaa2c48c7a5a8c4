import Lumos.Platform.GLShaderParse

/-!
# What `GLShader::ParseUniform` registers

A declaration with an array size is taken apart into its elements, each with a name and a place in the
user buffer.
-/
namespace Lumos.Graphics.GLShader

open StringUtilities

variable {c : Char} {str name : Text}

/-! ## Reading a name and a number -/

theorem strstr_char (h : c ∉ str) (rest : Text) : strstr [c] (str ++ c :: rest) = some (c :: rest) := by
  induction str with
  | nil => rw [List.nil_append, strstr, if_pos (by simp)]
  | cons d str ih =>
    obtain ⟨hd, hstr⟩ := not_or.mp (mt List.mem_cons.mpr h)
    rw [List.cons_append, strstr, if_neg (by simpa using hd), ih hstr]

theorem strstr_char_none (h : c ∉ str) : strstr [c] str = none := by
  induction str with
  | nil => rfl
  | cons d str ih =>
    obtain ⟨hd, hstr⟩ := not_or.mp (mt List.mem_cons.mpr h)
    rw [strstr, if_neg (by simpa using hd), ih hstr]

theorem before_append (str rest : Text) : before (str ++ rest) rest = str := by
  rw [before, List.length_append, Nat.add_sub_cancel, List.take_left']
  rfl

theorem stripSemicolon_append (h : ';' ∉ str) (rest : Text) : stripSemicolon (str ++ ';' :: rest) = str := by
  rw [stripSemicolon, strstr_char h]
  exact before_append str _

theorem not_mem_toDigits (hc : c.isDigit = false) (n : Nat) : c ∉ Nat.toDigits 10 n := fun hmem =>
  Bool.false_ne_true (hc.symm.trans (Nat.isDigit_of_mem_toDigits (by decide) (by decide) hmem))

theorem isSpace_eq_false_of_isDigit (h : c.isDigit = true) : isSpace c = false := by
  simp only [Char.isDigit, ge_iff_le, Bool.and_eq_true, decide_eq_true_eq, UInt32.le_iff_toNat_le] at h
  rw [isSpace, decide_eq_false_iff_not]
  rintro (rfl | ⟨-, hle⟩)
  · exact absurd h.1 (by decide)
  · rw [Char.le_def, UInt32.le_iff_toNat_le] at hle
    have hzero : ('\r').val.toNat < ('0').val.toNat := by decide
    exact absurd (Nat.le_trans h.1 hle) (Nat.not_le_of_lt hzero)

theorem atoi_toDigits (n : Nat) (hc : c.isDigit = false) (rest : Text) :
    atoi (Nat.toDigits 10 n ++ c :: rest) = if n < 2 ^ 31 then some (n : Int) else none := by
  obtain ⟨d, ds, hdigits⟩ := List.exists_cons_of_ne_nil (Nat.toDigits_ne_nil (n := n) (b := 10))
  have hdigit : ∀ e ∈ d :: ds, e.isDigit = true := fun e he =>
    Nat.isDigit_of_mem_toDigits (by decide) (by decide) (hdigits ▸ he)
  have hd := hdigit d List.mem_cons_self
  have hminus : d ≠ '-' := fun heq => absurd hd (by rw [heq]; decide)
  have hplus : d ≠ '+' := fun heq => absurd hd (by rw [heq]; decide)
  have htake : (d :: (ds ++ c :: rest)).takeWhile Char.isDigit = d :: ds := by
    rw [← List.cons_append, List.takeWhile_append_of_pos hdigit, List.takeWhile_cons_of_neg (by simp [hc]),
      List.append_nil]
  have hvalue : Nat.ofDigitChars 10 (d :: ds) 0 = n := hdigits ▸ Nat.ofDigitChars_ten_toDigits
  unfold atoi
  rw [hdigits, List.cons_append, List.dropWhile_cons_of_neg (by simp [isSpace_eq_false_of_isDigit hd])]
  dsimp only
  split
  · next heq => exact absurd (List.cons.inj heq).1 hminus
  · next heq => exact absurd (List.cons.inj heq).1 hplus
  · rw [htake, hvalue]
    by_cases hlt : n < 2 ^ 31
    · rw [if_pos hlt, if_pos ⟨by simp only [Bool.false_eq_true, if_false]; omega, by simp; omega⟩]
      rfl
    · rw [if_neg hlt, if_neg fun h => hlt (by simpa using Int.ofNat_lt.mp h.2)]

namespace Uniforms

/-! ## Declarations as they are written -/

/-- Letters, digits and underscores. -/
def IsIdentifier (name : Text) : Prop := ∀ c ∈ name, c.isAlphanum ∨ c = '_'

instance (name : Text) : Decidable (IsIdentifier name) := List.decidableBAll (fun c : Char => c.isAlphanum ∨ c = '_') name

theorem IsIdentifier.not_mem (h : IsIdentifier name) (hc : ¬ (c.isAlphanum ∨ c = '_')) : c ∉ name :=
  fun hmem => hc (h c hmem)

/-- A name with its array size. -/
def sizedName (name : Text) (size : Option Nat) : Text := name ++ size.elim [] subscript

theorem not_mem_subscript (hc : c.isDigit = false) (hopen : c ≠ '[') (hclose : c ≠ ']') (id : Nat) :
    c ∉ subscript id := by
  rw [subscript, List.cons_append, List.mem_cons, List.mem_append, List.mem_singleton]
  rintro (h | h | h)
  · exact hopen h
  · exact not_mem_toDigits hc id h
  · exact hclose h

theorem not_mem_sizedName (h : IsIdentifier name) (size : Option Nat) : ';' ∉ sizedName name size := by
  rw [sizedName, List.mem_append]
  rintro (hmem | hmem)
  · exact h.not_mem (by decide) hmem
  · cases size with
    | none => cases hmem
    | some n => exact not_mem_subscript (by decide) (by decide) (by decide) n hmem

theorem nameAndCount_none (h : IsIdentifier name) : nameAndCount (sizedName name none ++ [';']) = some (name, 1) := by
  rw [nameAndCount, stripSemicolon_append (not_mem_sizedName h none), sizedName, Option.elim_none, List.append_nil,
    strstr_char_none (h.not_mem (by decide))]

theorem nameAndCount_some (h : IsIdentifier name) (n : Nat) : nameAndCount (sizedName name (some n) ++ [';']) =
    if n < 2 ^ 31 then some (name, (n : Int)) else none := by
  have hopen : strstr ['['] (name ++ subscript n) = some (subscript n) := strstr_char (h.not_mem (by decide)) _
  have hclose : strstr [']'] (name ++ subscript n) = some [']'] := by
    have hmem : ']' ∉ name ++ '[' :: Nat.toDigits 10 n := by
      rw [List.mem_append, List.mem_cons]
      rintro (hmem | hmem | hmem)
      · exact h.not_mem (by decide) hmem
      · exact absurd hmem (by decide)
      · exact not_mem_toDigits (by decide) n hmem
    rw [show name ++ subscript n = (name ++ '[' :: Nat.toDigits 10 n) ++ [']'] by simp [subscript]]
    exact strstr_char hmem []
  have hlength : [']'].length ≤ (subscript n).length := by simp [subscript]
  have hdigits : ((subscript n).drop 1).take ((subscript n).length - [']'].length) = Nat.toDigits 10 n ++ [']'] := by
    rw [List.take_of_length_le (by simp [subscript])]
    rfl
  rw [nameAndCount, stripSemicolon_append (not_mem_sizedName h (some n)), sizedName, Option.elim_some, hopen]
  dsimp only
  rw [hclose, Option.bind_eq_bind, Option.bind_some, if_pos hlength, hdigits, atoi_toDigits n (by decide), before_append]
  split <;> rfl

/-- A declaration in the source, of a type that is no resource. -/
structure UniformStatement where
  text : Text
  type : Text
  name : Text
  size : Option Nat
  identifier : IsIdentifier name
  not_resource : isTypeStringResource type = false
  written : tokenize text = ["uniform".toList, type, sizedName name size ++ [';']]

/-- What a type name stands for. -/
inductive Kind where
  | basic (type : UniformType)
  | struct (s : ShaderStruct)

def kindOf (structs : List ShaderStruct) (typeString : Text) : Option Kind :=
  match stringToType typeString 1 with
  | .NONE => (structs.find? (·.name = typeString)).map .struct
  | t => some (.basic t)

/-- The byte size of one value. -/
def Kind.bytes : Kind → UInt32
  | .basic type => sizeOfUniformType type
  | .struct s => s.size

namespace UniformStatement

variable (s : UniformStatement)

/-- The elements `a[0]` to `a[n-1]` of an array, or the variable alone. -/
def names : List Text := s.size.elim [s.name] fun n => (List.range n).map fun i => s.name ++ subscript i

/-- The elements with their byte sizes. -/
def elements (structs : List ShaderStruct) : List (Text × Nat) :=
  s.names.map fun name => (name, (kindOf structs s.type).elim 0 (·.bytes.toNat))

end UniformStatement

/-- Where values of these sizes lie one behind the other. -/
def offsets : Nat → List Nat → List Nat
  | _, [] => []
  | start, bytes :: rest => start :: offsets (start + bytes) rest

/-- The elements of all declarations that belong into the system buffer, and those that belong into the user
buffer. -/
def systemElements (structs : List ShaderStruct) (statements : List UniformStatement) : List (Text × Nat) :=
  (statements.flatMap (·.elements structs)).filter fun element => isSystem element.1

def userElements (structs : List ShaderStruct) (statements : List UniformStatement) : List (Text × Nat) :=
  (statements.flatMap (·.elements structs)).filter fun element => !isSystem element.1

def systemBuffer (u : Uniforms) (type : ShaderType) : Buffer := (u.uniformBuffers type).headD {}

def userBuffer (u : Uniforms) (type : ShaderType) : Buffer := (u.userUniformBuffers type).getD {}

/-- The elements are registered in their order, and those of the user buffer lie one behind the other. -/
structure LaysOut (type : ShaderType) (structs : List ShaderStruct) (statements : List UniformStatement)
    (u : Uniforms) : Prop where
  types : ∀ s ∈ statements, (kindOf structs s.type).isSome
  system : (systemBuffer u type).uniforms.map (·.name) = (systemElements structs statements).map Prod.fst
  user : (userBuffer u type).uniforms.map (·.name) = (userElements structs statements).map Prod.fst
  offset : (userBuffer u type).uniforms.map (·.offset.toNat) = offsets 0 ((userElements structs statements).map Prod.snd)
  size : (userBuffer u type).size.toNat = ((userElements structs statements).map Prod.snd).sum

/-- `ParseUniform` on one declaration after the other. -/
def parseUniforms (type : ShaderType) (statements : List UniformStatement) (u : Uniforms) : Except Stop Uniforms :=
  statements.foldlM (fun u s => parseUniform type s.text u) u

/-- All declarations are parsed, and what is registered then is laid out so. -/
def Registers (type : ShaderType) (statements : List UniformStatement) (u : Uniforms) : Prop :=
  ∃ u', parseUniforms type statements u = .ok u' ∧ LaysOut type u.structs statements u'

/-- The type is known. There is no array size, or one that the subscripts are taken off for again, of elements of the
system buffer. -/
def Fits (structs : List ShaderStruct) (s : UniformStatement) : Prop :=
  (kindOf structs s.type).isSome ∧ ∀ n ∈ s.size, isSystem s.name ∧ 2 ≤ n ∧ n ≤ 101

/-! ## The names of the elements -/

theorem isSystem_append_bracket (rest : Text) : isSystem (name ++ '[' :: rest) = isSystem name := by
  rw [Bool.eq_iff_iff, isSystem, isSystem, startsWith, startsWith, List.isPrefixOf_iff_prefix, List.isPrefixOf_iff_prefix]
  refine ⟨fun h => ?_, fun h => h.trans (List.prefix_append name _)⟩
  rcases List.prefix_or_prefix_of_prefix h (List.prefix_append name _) with hprefix | ⟨more, hmore⟩
  · exact hprefix
  · rw [← hmore] at h ⊢
    cases more with
    | nil => simp
    | cons c more =>
      obtain ⟨rfl, -⟩ := List.cons_prefix_cons.mp ((List.prefix_append_right_inj name).mp h)
      have hmem : '[' ∈ "sys_".toList := hmore ▸ List.mem_append_right name List.mem_cons_self
      exact absurd hmem (by decide)

theorem length_subscript (id : Nat) : (subscript id).length = (Nat.toDigits 10 id).length + 2 := by
  simp [subscript]

/-- What is behind the name when a turn of the loop begins. -/
def leftover : Nat → Text
  | 0 => []
  | id + 1 =>
    let full := leftover id ++ subscript id
    full.take (full.length - if 9 < id then 4 else 3)

theorem le_length_subscript (id : Nat) : (if 9 < id then 4 else 3) ≤ (subscript id).length := by
  have hpos : 0 < (Nat.toDigits 10 id).length := Nat.length_toDigits_pos
  have hdigits := Nat.length_toDigits_le_iff (b := 10) (n := id) (k := 1) (by decide) (by decide)
  rw [length_subscript]
  split <;> omega

theorem length_subscript_eq {id : Nat} (h : id < 100) : (subscript id).length = if 9 < id then 4 else 3 := by
  have hle := le_length_subscript id
  have hdigits := Nat.length_toDigits_le_iff (b := 10) (n := id) (k := 1) (by decide) (by decide)
  have hdigits' := Nat.length_toDigits_le_iff (b := 10) (n := id) (k := 2) (by decide) (by decide)
  rw [length_subscript] at hle ⊢
  split at hle
  · next hlt => rw [if_pos hlt]; omega
  · next hle' => rw [if_neg hle']; omega

/-- Nothing is left over of subscripts with one and two digits. -/
theorem leftover_of_le {id : Nat} (h : id ≤ 100) : leftover id = [] := by
  induction id with
  | zero => rfl
  | succ id ih =>
    rw [leftover, ih (Nat.le_of_succ_le h), List.nil_append, ← length_subscript_eq h, Nat.sub_self]
    rfl

theorem leftover_101 : leftover 101 = ['['] := by
  rw [leftover, leftover_of_le (Nat.le_refl 100)]
  decide

theorem exists_leftover (id : Nat) : ∃ rest, leftover id ++ subscript id = '[' :: rest := by
  have hall : leftover id = [] ∨ ∃ rest, leftover id = '[' :: rest := by
    induction id with
    | zero => exact Or.inl rfl
    | succ id ih =>
      have hfull : ∃ rest, leftover id ++ subscript id = '[' :: rest := by
        rcases ih with h | ⟨rest, h⟩
        · exact ⟨_, by rw [h]; rfl⟩
        · exact ⟨_, by rw [h]; rfl⟩
      obtain ⟨rest, hrest⟩ := hfull
      rw [leftover, hrest]
      cases ('[' :: rest).length - if 9 < id then 4 else 3 with
      | zero => exact Or.inl rfl
      | succ n => exact Or.inr ⟨_, List.take_succ_cons⟩
  rcases hall with h | ⟨rest, h⟩
  · exact ⟨_, by rw [h]; rfl⟩
  · exact ⟨_, by rw [h]; rfl⟩

/-! ## What a statement registers -/

variable {type : ShaderType} {typeString : Text} {u u' u'' : Uniforms} {k : Kind} {declarations more : List Declaration}

def Kind.declare : Kind → Text → UInt32 → Declaration
  | .basic type => Declaration.ofType type
  | .struct s => Declaration.ofStruct s

@[simp] theorem Kind.declare_name (k : Kind) (name : Text) (count : UInt32) : (k.declare name count).name = name := by
  cases k <;> rfl

@[simp] theorem Kind.declare_size (k : Kind) (name : Text) (count : UInt32) :
    (k.declare name count).size = k.bytes * count := by
  cases k <;> rfl

/-- The declarations are pushed, each into its buffer. -/
structure Adds (type : ShaderType) (declarations : List Declaration) (u u' : Uniforms) : Prop where
  structs : u'.structs = u.structs
  buffers : u.uniformBuffers type ≠ [] → u'.uniformBuffers type ≠ []
  system : systemBuffer u' type = (declarations.filter fun d => isSystem d.name).foldl .pushUniform (systemBuffer u type)
  user : userBuffer u' type = (declarations.filter fun d => !isSystem d.name).foldl .pushUniform (userBuffer u type)

theorem Adds.refl (type : ShaderType) (u : Uniforms) : Adds type [] u u := ⟨rfl, id, rfl, rfl⟩

theorem Adds.trans (h : Adds type declarations u u') (h' : Adds type more u' u'') :
    Adds type (declarations ++ more) u u'' where
  structs := h'.structs.trans h.structs
  buffers := h'.buffers ∘ h.buffers
  system := by rw [h'.system, h.system, List.filter_append, List.foldl_append]
  user := by rw [h'.user, h.user, List.filter_append, List.foldl_append]

theorem adds_pushUser {declaration : Declaration} (h : isSystem declaration.name = false) :
    Adds type [declaration] u (u.pushUser type declaration) where
  structs := rfl
  buffers := id
  system := by rw [List.filter_cons_of_neg (by simp [h])]; rfl
  user := by
    rw [List.filter_cons_of_pos (by simp [h]), userBuffer, pushUser]
    simp [userBuffer]

theorem adds_pushSystem (hbuffers : u.uniformBuffers type ≠ []) {declaration : Declaration}
    (h : isSystem declaration.name = true) :
    ∃ u', u.pushSystem type declaration = .ok u' ∧ Adds type [declaration] u u' := by
  obtain ⟨front, rest, hfront⟩ := List.exists_cons_of_ne_nil hbuffers
  unfold pushSystem
  rw [hfront]
  refine ⟨_, rfl, rfl, fun _ => by simp, ?_, ?_⟩
  · rw [List.filter_cons_of_pos (by simpa using h), systemBuffer, systemBuffer, hfront]
    simp
  · rw [List.filter_cons_of_neg (by simp [h])]
    rfl

theorem adds_push (hbuffers : u.uniformBuffers type ≠ []) {declaration : Declaration} (h : declaration.name = name) :
    ∃ u', (if isSystem name then u.pushSystem type declaration else .ok (u.pushUser type declaration)) = .ok u' ∧
      Adds type [declaration] u u' := by
  split
  · next hsystem => exact adds_pushSystem hbuffers (by rw [h, hsystem])
  · next hsystem => exact ⟨_, rfl, adds_pushUser (by rw [h, eq_false_of_ne_true hsystem])⟩

theorem adds_foldl_pushUser (declarations : List Declaration) (h : ∀ d ∈ declarations, isSystem d.name = false)
    (u : Uniforms) : Adds type declarations u (declarations.foldl (fun u d => u.pushUser type d) u) := by
  induction declarations generalizing u with
  | nil => exact Adds.refl type u
  | cons d declarations ih =>
    exact (adds_pushUser (h d List.mem_cons_self)).trans (ih (fun d' hd' => h d' (List.mem_cons_of_mem d hd')) _)

/-- The test for an array of matrices comes behind the one for matrices. -/
theorem stringToType_count (typeString : Text) (count : UInt32) :
    stringToType typeString count = stringToType typeString 1 := by
  unfold stringToType
  by_cases hmat : typeString = "mat4".toList
  · rw [if_pos hmat, if_pos hmat]
  · rw [if_neg (mt And.left hmat), if_neg (mt And.left hmat)]

/-- A type name is that of a basic type, or else that of a struct. -/
theorem kindOf_cases {structs : List ShaderStruct} (h : kindOf structs typeString = some k) :
    (stringToType typeString 1 = .NONE ∧ ∃ s, structs.find? (·.name = typeString) = some s ∧ .struct s = k) ∨
    (stringToType typeString 1 ≠ .NONE ∧ .basic (stringToType typeString 1) = k) := by
  rw [kindOf] at h
  split at h
  · next hnone => exact Or.inl ⟨hnone, Option.map_eq_some_iff.mp h⟩
  · next hbasic => exact Or.inr ⟨hbasic, Option.some.inj h⟩

/-- What is declared for an element of an array. -/
def elementDeclarations (k : Kind) (name : Text) (count : UInt32) : List Declaration :=
  match k with
  | .basic type => [Declaration.ofType type name count]
  | .struct s =>
    if isSystem name then [Declaration.ofStruct s name count]
    else (List.range count.toNat).map fun id => { Declaration.ofStruct s name count with name := name ++ subscript id }

theorem adds_declareElement (hbuffers : u.uniformBuffers type ≠ []) (hkind : kindOf u.structs typeString = some k)
    (name : Text) (count : UInt32) : ∃ u', declareElement type typeString name count u = .ok u' ∧
      Adds type (elementDeclarations k name count) u u' := by
  unfold declareElement
  rw [stringToType_count]
  rcases kindOf_cases hkind with ⟨hnone, s, hs, rfl⟩ | ⟨hbasic, rfl⟩
  · rw [hnone]
    dsimp only
    rw [findStruct, hs]
    dsimp only
    rw [elementDeclarations]
    by_cases hsystem : isSystem name
    · rw [if_pos hsystem, if_pos hsystem]
      exact adds_pushSystem hbuffers hsystem
    · rw [if_neg hsystem, if_neg hsystem]
      refine ⟨_, rfl, ?_⟩
      have huser : ∀ d ∈ (List.range count.toNat).map fun id =>
          { Declaration.ofStruct s name count with name := name ++ subscript id }, isSystem d.name = false := by
        intro d hd
        obtain ⟨id, -, rfl⟩ := List.mem_map.mp hd
        exact (isSystem_append_bracket _).trans (eq_false_of_ne_true hsystem)
      have hadds : Adds type _ u _ := adds_foldl_pushUser _ huser u
      rwa [List.foldl_map] at hadds
  · split
    · next hnone => exact absurd hnone hbasic
    · exact adds_push hbuffers rfl

/-- One turn of the loop takes off as much as `leftover` says. -/
theorem parseElement_eq {count : UInt32} {n : Nat}
    (h : declareElement type typeString (name ++ (leftover n ++ subscript n)) count u = .ok u') :
    parseElement type typeString count (name ++ leftover n, u) n = .ok (name ++ leftover (n + 1), u') := by
  have htake : ∀ j, j ≤ (leftover n ++ subscript n).length →
      (name ++ (leftover n ++ subscript n)).take ((name ++ (leftover n ++ subscript n)).length - j) =
        name ++ (leftover n ++ subscript n).take ((leftover n ++ subscript n).length - j) := by
    intro j hj
    rw [List.length_append, Nat.add_sub_assoc hj, List.take_length_add_append]
  have hle : (if 9 < n then 4 else 3) ≤ (leftover n ++ subscript n).length := by
    rw [List.length_append]
    exact Nat.le_trans (le_length_subscript n) (Nat.le_add_left _ _)
  rw [parseElement]
  dsimp only
  rw [List.append_assoc, h, leftover]
  split
  · next hlt =>
    rw [if_pos hlt] at hle
    rw [← htake 4 hle]
    rfl
  · next hlt =>
    rw [if_neg hlt] at hle
    rw [← htake 3 hle]
    rfl

theorem adds_foldlM_parseElement (hbuffers : u.uniformBuffers type ≠ []) (hkind : kindOf u.structs typeString = some k)
    (name : Text) (count : UInt32) (n : Nat) :
    ∃ u', (List.range n).foldlM (parseElement type typeString count) (name, u) = .ok (name ++ leftover n, u') ∧
      Adds type ((List.range n).flatMap fun i => elementDeclarations k (name ++ (leftover i ++ subscript i)) count)
        u u' := by
  induction n with
  | zero => exact ⟨u, by simp [leftover, pure, Except.pure], Adds.refl type u⟩
  | succ n ih =>
    obtain ⟨v, hv, hadds⟩ := ih
    obtain ⟨u', hu', hadds'⟩ := adds_declareElement (hadds.buffers hbuffers) (by rwa [hadds.structs])
      (name ++ (leftover n ++ subscript n)) count
    refine ⟨u', ?_, ?_⟩
    · rw [List.range_succ, List.foldlM_append, hv]
      simp only [bind, Except.bind, List.foldlM_cons, List.foldlM_nil]
      rw [parseElement_eq hu']
      rfl
    · rw [List.range_succ, List.flatMap_append, List.flatMap_singleton]
      exact hadds.trans hadds'

theorem adds_parseSingle (hbuffers : u.uniformBuffers type ≠ []) (hkind : kindOf u.structs typeString = some k)
    (name : Text) (count : UInt32) :
    ∃ u', parseSingle type typeString name count u = .ok u' ∧ Adds type [k.declare name count] u u' := by
  unfold parseSingle
  dsimp only
  rw [stringToType_count]
  rcases kindOf_cases hkind with ⟨hnone, s, hs, rfl⟩ | ⟨hbasic, rfl⟩
  · rw [hnone]
    dsimp only
    rw [findStruct, hs]
    exact adds_push hbuffers rfl
  · split
    · next hnone => exact absurd hnone hbasic
    · exact adds_push hbuffers rfl

namespace UniformStatement

/-- What a statement declares. -/
def declared (s : UniformStatement) (k : Kind) : List Declaration :=
  match s.size with
  | none => [k.declare s.name 1]
  | some n =>
    if 1 < n then
      (List.range n).flatMap fun i => elementDeclarations k (s.name ++ (leftover i ++ subscript i)) (.ofNat n)
    else [k.declare s.name (.ofNat n)]

end UniformStatement

theorem parseUniform_eq (s : UniformStatement) :
    parseUniform type s.text u = declareUniform type s.type (sizedName s.name s.size ++ [';']) u := by
  rw [parseUniform, s.written]
  rfl

/-- A size that is no `int` is not read. -/
theorem lt_of_parseUniform {s : UniformStatement} (h : parseUniform type s.text u = .ok u') :
    ∀ n ∈ s.size, n < 2 ^ 31 := by
  intro n hn
  by_contra hge
  rw [parseUniform_eq, declareUniform, Option.mem_def.mp hn, nameAndCount_some s.identifier, if_neg hge] at h
  cases h

theorem adds_parseUniform (hbuffers : u.uniformBuffers type ≠ []) {s : UniformStatement}
    (hkind : kindOf u.structs s.type = some k) (hsize : ∀ n ∈ s.size, n < 2 ^ 31) :
    ∃ u', parseUniform type s.text u = .ok u' ∧ Adds type (s.declared k) u u' := by
  rw [parseUniform_eq, declareUniform, UniformStatement.declared]
  cases hn : s.size with
  | none =>
    rw [nameAndCount_none s.identifier]
    dsimp only
    rw [if_neg (by simp [s.not_resource]), if_neg (by decide)]
    exact adds_parseSingle hbuffers hkind s.name 1
  | some n =>
    rw [nameAndCount_some s.identifier, if_pos (hsize n (Option.mem_def.mpr hn))]
    dsimp only
    rw [if_neg (by simp [s.not_resource])]
    have hcount : UInt32.ofInt n = UInt32.ofNat n := by
      have hlt := hsize n (Option.mem_def.mpr hn)
      exact congrArg UInt32.ofNat (by omega)
    have hone : (1 : Int) < n ↔ 1 < n := by omega
    rw [hcount, Int.toNat_natCast]
    by_cases hmany : 1 < n
    · rw [if_pos (hone.mpr hmany), if_pos hmany]
      obtain ⟨u', hfold, hadds⟩ := adds_foldlM_parseElement hbuffers hkind s.name (.ofNat n) n
      exact ⟨u', by rw [hfold]; rfl, hadds⟩
    · rw [if_neg (mt hone.mp hmany), if_neg hmany]
      exact adds_parseSingle hbuffers hkind s.name _

theorem parseUniforms_cons (s : UniformStatement) (statements : List UniformStatement) :
    parseUniforms type (s :: statements) u = (parseUniform type s.text u).bind (parseUniforms type statements) := rfl

theorem lt_of_parseUniforms {statements : List UniformStatement} (h : parseUniforms type statements u = .ok u') :
    ∀ s ∈ statements, ∀ n ∈ s.size, n < 2 ^ 31 := by
  induction statements generalizing u with
  | nil => exact fun s hs => absurd hs List.not_mem_nil
  | cons s statements ih =>
    rw [parseUniforms_cons] at h
    cases hs : parseUniform type s.text u with
    | error stop =>
      rw [hs] at h
      cases h
    | ok v =>
      rw [hs] at h
      exact List.forall_mem_cons.mpr ⟨lt_of_parseUniform hs, ih h⟩

/-- What a statement registers, where these structs are known. -/
def UniformStatement.registered (structs : List ShaderStruct) (s : UniformStatement) : List Declaration :=
  (kindOf structs s.type).elim [] s.declared

theorem adds_parseUniforms (hbuffers : u.uniformBuffers type ≠ []) {statements : List UniformStatement}
    (htypes : ∀ s ∈ statements, (kindOf u.structs s.type).isSome) (hsize : ∀ s ∈ statements, ∀ n ∈ s.size, n < 2 ^ 31) :
    ∃ u', parseUniforms type statements u = .ok u' ∧
      Adds type (statements.flatMap (·.registered u.structs)) u u' := by
  induction statements generalizing u with
  | nil => exact ⟨u, rfl, Adds.refl type u⟩
  | cons s statements ih =>
    obtain ⟨htype, htypes⟩ := List.forall_mem_cons.mp htypes
    obtain ⟨hhead, hsize⟩ := List.forall_mem_cons.mp hsize
    obtain ⟨k, hk⟩ := Option.isSome_iff_exists.mp htype
    obtain ⟨v, hv, hadds⟩ := adds_parseUniform hbuffers hk hhead
    obtain ⟨u', hu', hadds'⟩ := ih (hadds.buffers hbuffers) (by rwa [hadds.structs]) hsize
    refine ⟨u', by rw [parseUniforms_cons, hv]; exact hu', ?_⟩
    rw [hadds.structs] at hadds'
    rw [List.flatMap_cons, UniformStatement.registered, hk]
    exact hadds.trans hadds'

end Uniforms

end Lumos.Graphics.GLShader
