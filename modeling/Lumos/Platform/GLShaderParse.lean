import Mathlib
import Lumos.Library.Loop
import Lumos.Platform.GLShader

/-!
# `GLShader::Parse`

The text of each stage is gone through for the word `struct` and then for the word `uniform`. What
follows is cut off at its end mark, taken apart into tokens and registered.
-/
namespace Lumos.Graphics.GLShader

open StringUtilities

/-! ## Texts -/

/-- Why the run of a function stops: a token that is not there, or another exception or access. -/
inductive Stop where
  | token | other
  deriving DecidableEq

/-- The text from the first place on where `search` is found. -/
def strstr (search : Text) : Text → Option Text
  | [] => if search = [] then some [] else none
  | c :: str => if search.isPrefixOf (c :: str) then some (c :: str) else strstr search str

/-- What is before the place where `search` is found. -/
def before (str found : Text) : Text := str.take (str.length - found.length)

def isSpace (c : Char) : Bool := c = ' ' ∨ ('\t' ≤ c ∧ c ≤ '\r')

/-- `tokens[index]` -/
def tokenAt (tokens : List Text) (index : Nat) : Except Stop Text := (tokens[index]?).elim (.error .token) .ok

def tokenize (string : Text) : List Text := splitString string [' ', '\t', '\n']

/-- A place in `str` where `token` is a word of its own, from `t` on. -/
def findTokenFrom (str token : Text) : Nat → Text → Option Text
  | 0, _ => none
  | fuel + 1, t =>
    match strstr token t with
    | none => none
    | some t =>
      let left := str.length = t.length ∨ (str[str.length - t.length - 1]?).any isSpace
      let right := (t[token.length]?).all isSpace
      if left ∧ right then some t else findTokenFrom str token fuel (t.drop token.length)

def findToken (str token : Text) : Option Text := findTokenFrom str token (str.length + 1) str

/-- `GetBlock` and `GetStatement`: the text up to its end mark, with the mark, and where that is. -/
def cut (mark : Char) (str : Text) : Text × Option Text :=
  match strstr [mark] str with
  | none => (str, none)
  | some found => (before str found ++ [mark], some found)

/-- `atoi`, which is not defined for numbers that are no `int`. -/
def atoi (str : Text) : Option Int :=
  let str := str.dropWhile isSpace
  let (negative, str) := match str with
    | '-' :: str => (true, str)
    | '+' :: str => (false, str)
    | str => (false, str)
  let magnitude := Nat.ofDigitChars 10 (str.takeWhile Char.isDigit) 0
  let value : Int := if negative then -magnitude else magnitude
  if -(2 ^ 31) ≤ value ∧ value < 2 ^ 31 then some value else none

/-- What is before a `;`, if there is one. -/
def stripSemicolon (name : Text) : Text := (strstr [';'] name).elim name (before name)

/-- A name and the number in brackets behind it. It fails where the bracket is not closed, as the length of the text
between them is not a length then. -/
def nameAndCount (token : Text) : Option (Text × Int) :=
  let name := stripSemicolon token
  match strstr ['['] name with
  | none => some (name, 1)
  | some s => do
    let close ← strstr [']'] name
    if close.length ≤ s.length then
      let count ← atoi (((s.drop 1).take (s.length - close.length)))
      return (before name s, count)
    else none

/-! ## Declarations -/

inductive UniformType where
  | NONE | FLOAT32 | VEC2 | VEC3 | VEC4 | MAT3 | MAT4 | INT32 | INT | UINT | STRUCT | MAT4ARRAY
  deriving DecidableEq

def sizeOfUniformType : UniformType → UInt32
  | .INT | .INT32 | .FLOAT32 | .UINT => 4
  | .VEC2 => 8
  | .VEC3 => 12
  | .VEC4 => 16
  | .MAT3 => 36
  | .MAT4 | .MAT4ARRAY => 64
  | .NONE | .STRUCT => 0

def stringToType (type : Text) (count : UInt32) : UniformType :=
  if type = "int32_t".toList then .INT32
  else if type = "uint".toList then .UINT
  else if type = "int".toList then .INT32
  else if type = "float".toList then .FLOAT32
  else if type = "vec2".toList then .VEC2
  else if type = "vec3".toList then .VEC3
  else if type = "vec4".toList then .VEC4
  else if type = "mat3".toList then .MAT3
  else if type = "mat4".toList then .MAT4
  else if type = "mat4".toList ∧ 1 < count then .MAT4ARRAY
  else .NONE

/-- A field of a struct. -/
structure Field where
  type : UniformType
  name : Text
  count : UInt32
  size : UInt32
  offset : UInt32
  deriving DecidableEq

def Field.make (type : UniformType) (name : Text) (count : UInt32) : Field :=
  ⟨type, name, count, sizeOfUniformType type * count, 0⟩

structure ShaderStruct where
  name : Text
  fields : List Field := []
  size : UInt32 := 0
  deriving DecidableEq

def ShaderStruct.addField (s : ShaderStruct) (field : Field) : ShaderStruct :=
  let offset := (s.fields.getLast?).elim 0 fun previous => previous.offset + previous.size
  { s with size := s.size + field.size, fields := s.fields ++ [{ field with offset := offset }] }

/-- `GLShaderUniformDeclaration` -/
structure Declaration extends Field where
  struct : Option ShaderStruct
  deriving DecidableEq

def Declaration.ofType (type : UniformType) (name : Text) (count : UInt32) : Declaration :=
  { Field.make type name count with struct := none }

def Declaration.ofStruct (s : ShaderStruct) (name : Text) (count : UInt32) : Declaration :=
  { type := .STRUCT, name := name, count := count, size := s.size * count, offset := 0, struct := some s }

/-- `GLShaderUniformBufferDeclaration` -/
structure Buffer where
  uniforms : List Declaration := []
  size : UInt32 := 0
  deriving DecidableEq

def Buffer.pushUniform (b : Buffer) (uniform : Declaration) : Buffer :=
  let offset := (b.uniforms.getLast?).elim 0 fun previous => previous.offset + previous.size
  { size := b.size + uniform.size, uniforms := b.uniforms ++ [{ uniform with offset := offset }] }

/-- `GLShaderResourceDeclaration` -/
structure Resource where
  type : Text
  name : Text
  count : UInt32
  deriving DecidableEq

/-! ## The shader -/

/-- `m_UniformBuffers`, `m_UserUniformBuffers`, `m_Structs` and `m_Resources`. -/
structure Uniforms where
  uniformBuffers : ShaderType → List Buffer := fun _ => []
  userUniformBuffers : ShaderType → Option Buffer := fun _ => none
  structs : List ShaderStruct := []
  resources : List Resource := []

namespace Uniforms

def findStruct (u : Uniforms) (name : Text) : Option ShaderStruct := u.structs.find? (·.name = name)

/-- A declaration goes into the first system buffer or, without the prefix for that, into the user buffer. -/
def pushSystem (u : Uniforms) (type : ShaderType) (declaration : Declaration) : Except Stop Uniforms :=
  match u.uniformBuffers type with
  | [] => .error .other
  | front :: rest => .ok { u with
      uniformBuffers := Function.update u.uniformBuffers type (front.pushUniform declaration :: rest) }

def pushUser (u : Uniforms) (type : ShaderType) (declaration : Declaration) : Uniforms :=
  let buffer := ((u.userUniformBuffers type).getD {}).pushUniform declaration
  { u with userUniformBuffers := Function.update u.userUniformBuffers type (some buffer) }

def isTypeStringResource (type : Text) : Bool :=
  type = "sampler2D".toList ∨ type = "samplerCube".toList ∨ type = "sampler2DShadow".toList ∨
    type = "sampler2DArrayShadow".toList

def isSystem (name : Text) : Bool := startsWith name "sys_".toList

/-- `[id]` -/
def subscript (id : Nat) : Text := '[' :: Nat.toDigits 10 id ++ [']']

/-- What is declared for an element of an array, with its name. -/
def declareElement (type : ShaderType) (typeString name : Text) (count : UInt32) (u : Uniforms) :
    Except Stop Uniforms :=
  match stringToType typeString count with
  | .NONE =>
    match u.findStruct typeString with
    | none => .error .other
    | some s =>
      let declaration := Declaration.ofStruct s name count
      if isSystem name then u.pushSystem type declaration
      else .ok ((List.range count.toNat).foldl
        (fun u id => u.pushUser type { declaration with name := name ++ subscript id }) u)
  | t =>
    let declaration := Declaration.ofType t name count
    if isSystem name then u.pushSystem type declaration else .ok (u.pushUser type declaration)

/-- One turn of the loop over the elements. The name keeps what is not taken off its end again. -/
def parseElement (type : ShaderType) (typeString : Text) (count : UInt32) (loop : Text × Uniforms) (countID : Nat) :
    Except Stop (Text × Uniforms) := do
  let name := loop.1 ++ subscript countID
  let u ← declareElement type typeString name count loop.2
  return (if 9 < countID then name.take (name.length - 4) else name.take (name.length - 3), u)

/-- What is declared without an array, or with an array of one. Nothing comes of types that are not known. -/
def parseSingle (type : ShaderType) (typeString name : Text) (count : UInt32) (u : Uniforms) : Except Stop Uniforms :=
  let push (declaration : Declaration) : Except Stop Uniforms :=
    if isSystem name then u.pushSystem type declaration else .ok (u.pushUser type declaration)
  match stringToType typeString count with
  | .NONE =>
    match u.findStruct typeString with
    | none => .ok u
    | some s => push (Declaration.ofStruct s name count)
  | t => push (Declaration.ofType t name count)

/-- What is declared with this type and this name. -/
def declareUniform (type : ShaderType) (typeString token : Text) (u : Uniforms) : Except Stop Uniforms :=
  match nameAndCount token with
  | none => .error .other
  | some (name, count) =>
    if isTypeStringResource typeString then
      .ok { u with resources := u.resources ++ [⟨typeString, name, .ofInt count⟩] }
    else if 1 < count then
      ((List.range count.toNat).foldlM (parseElement type typeString (.ofInt count)) (name, u)).map Prod.snd
    else parseSingle type typeString name (.ofInt count) u

def parseUniform (type : ShaderType) (statement : Text) (u : Uniforms) : Except Stop Uniforms := do
  let typeString ← tokenAt (tokenize statement) 1
  let token ← tokenAt (tokenize statement) 2
  declareUniform type typeString token u

/-- The fields, two tokens each. -/
def parseFields (s : ShaderStruct) : List Text → Except Stop ShaderStruct
  | [] => .ok s
  | type :: rest =>
    if type = ['}'] then .ok s
    else
      match rest with
      | [] => .error .token
      | token :: rest =>
        match nameAndCount token with
        | none => .error .other
        | some (name, count) =>
          parseFields (s.addField (.make (stringToType type (.ofInt count)) name (.ofInt count))) rest

def parseUniformStruct (block : Text) (u : Uniforms) : Except Stop Uniforms := do
  let tokens := tokenize block
  let name ← tokenAt tokens 1
  let s ← parseFields { name := name } (tokens.drop 3)
  return { u with structs := u.structs ++ [s] }

/-- One turn of a loop in `Parse`: the next word, and on from its end mark if there is one. -/
def scanBody (keyword : Text) (mark : Char) (parse : Text → Uniforms → Except Stop Uniforms) :
    Loop.Body (Text × Uniforms) (Except Stop Uniforms) := fun (str, u) =>
  match findToken str keyword with
  | none => some (.inr (.ok u))
  | some token =>
    match parse (cut mark token).1 u with
    | .error stop => some (.inr (.error stop))
    | .ok u => some (.inl ((cut mark token).2.getD str, u))

/-- `m_UniformBuffers[type].push_back` -/
def beginStage (u : Uniforms) (type : ShaderType) : Uniforms :=
  { u with uniformBuffers := Function.update u.uniformBuffers type (u.uniformBuffers type ++ [{}]) }

/-- The loops over the text of one stage, of at most so many turns each. -/
def parseSource (fuel : Nat) (u : Uniforms) (source : ShaderType × Text) : Option (Except Stop Uniforms) :=
  let str := cString source.2
  match Loop.run (scanBody "struct".toList '}' parseUniformStruct) fuel (str, u.beginStage source.1) with
  | some (.ok u) => Loop.run (scanBody "uniform".toList ';' (parseUniform source.1)) fuel (str, u)
  | result => result

/-- `Parse` -/
def parse (fuel : Nat) : List (ShaderType × Text) → Uniforms → Option (Except Stop Uniforms)
  | [], u => some (.ok u)
  | source :: sources, u =>
    match parseSource fuel u source with
    | some (.ok u) => parse fuel sources u
    | result => result

end Uniforms

end Lumos.Graphics.GLShader
