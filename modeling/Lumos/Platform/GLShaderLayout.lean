import Lumos.Platform.GLShaderUniforms

/-!
# Where `GLShader::ParseUniform` lays the elements out

Each declaration of a buffer begins where the one before it ends. The elements of an array are declared with
the size of the whole array.
-/
namespace Lumos.Graphics.GLShader

open StringUtilities

namespace Uniforms

variable {type : ShaderType} {typeString name : Text} {u u' : Uniforms} {k : Kind} {declarations : List Declaration}

/-! ## Offsets -/

/-- The declarations with the offsets that they come to, from one on. -/
def place : UInt32 → List Declaration → List Declaration
  | _, [] => []
  | offset, d :: declarations => { d with offset := offset } :: place (offset + d.size) declarations

def endOf : UInt32 → List Declaration → UInt32
  | offset, [] => offset
  | offset, d :: declarations => endOf (offset + d.size) declarations

/-- The size of a buffer is where its last declaration ends. -/
theorem foldl_pushUniform (declarations : List Declaration) {b : Buffer}
    (h : (b.uniforms.getLast?).elim 0 (fun previous => previous.offset + previous.size) = b.size) :
    declarations.foldl .pushUniform b =
      { size := endOf b.size declarations, uniforms := b.uniforms ++ place b.size declarations } := by
  induction declarations generalizing b with
  | nil => simp [place, endOf]
  | cons d declarations ih =>
    rw [List.foldl_cons, ih (by simp [Buffer.pushUniform, h])]
    simp [Buffer.pushUniform, h, place, endOf]

theorem map_name_place (offset : UInt32) (declarations : List Declaration) :
    (place offset declarations).map (·.name) = declarations.map (·.name) := by
  induction declarations generalizing offset with
  | nil => rfl
  | cons d declarations ih => rw [place, List.map_cons, List.map_cons, ih]

/-- The sum wraps where the sizes are not the byte sizes, or there are too many of them. -/
theorem toNat_add_eq_iff (offset size : UInt32) (bytes : Nat) :
    (offset + size).toNat = offset.toNat + bytes ↔ size.toNat = bytes ∧ offset.toNat + bytes < 2 ^ 32 := by
  have hoffset := offset.toNat_lt
  have hsize := size.toNat_lt
  rw [UInt32.toNat_add]
  omega

theorem place_iff {declarations : List Declaration} {bytes : List Nat} (hlength : declarations.length = bytes.length)
    (offset : UInt32) :
    ((place offset declarations).map (·.offset.toNat) = offsets offset.toNat bytes ∧
      (endOf offset declarations).toNat = offset.toNat + bytes.sum) ↔
    declarations.map (·.size.toNat) = bytes ∧ offset.toNat + bytes.sum < 2 ^ 32 := by
  induction declarations generalizing offset bytes with
  | nil =>
    obtain rfl := List.eq_nil_of_length_eq_zero hlength.symm
    simp [place, offsets, endOf, offset.toNat_lt]
  | cons d declarations ih =>
    cases bytes with
    | nil => cases hlength
    | cons b bytes =>
      have ih := ih (Nat.succ.inj hlength) (offset + d.size)
      rw [place, offsets, endOf, List.map_cons, List.map_cons, List.sum_cons, List.cons.injEq, List.cons.injEq,
        ← Nat.add_assoc]
      by_cases hnext : (offset + d.size).toNat = offset.toNat + b
      · rw [hnext] at ih
        simp only [true_and, (toNat_add_eq_iff offset d.size b).mp hnext]
        exact ih
      · refine iff_of_false (fun ⟨⟨_, hrest⟩, hend⟩ => hnext ?_) fun ⟨⟨hb, _⟩, hlt⟩ =>
          hnext ((toNat_add_eq_iff offset d.size b).mpr ⟨hb, Nat.lt_of_le_of_lt (Nat.le_add_right _ _) hlt⟩)
        -- the next offset is that of the next declaration, or the end
        cases declarations with
        | nil =>
          obtain rfl := List.eq_nil_of_length_eq_zero (Nat.succ.inj hlength).symm
          exact hend
        | cons d' declarations =>
          obtain ⟨b', bytes, rfl⟩ := List.exists_cons_of_length_eq_add_one (Nat.succ.inj hlength).symm
          exact (List.cons.inj hrest).1

/-! ## One statement -/

theorem length_flatMap_le {α β γ : Type} {f : α → List β} {g : α → List γ} {l : List α}
    (hlength : ∀ a ∈ l, (f a).length ≤ (g a).length) : (l.flatMap f).length ≤ (l.flatMap g).length := by
  induction l with
  | nil => exact Nat.le_refl 0
  | cons a l ih =>
    obtain ⟨hhead, htail⟩ := List.forall_mem_cons.mp hlength
    rw [List.flatMap_cons, List.flatMap_cons, List.length_append, List.length_append]
    exact Nat.add_le_add hhead (ih htail)

/-- Where no piece is shorter, the whole can only be equal piece by piece. -/
theorem flatMap_eq_iff {α β : Type} {f g : α → List β} {l : List α} (hlength : ∀ a ∈ l, (f a).length ≤ (g a).length) :
    l.flatMap g = l.flatMap f ↔ ∀ a ∈ l, g a = f a := by
  refine ⟨fun h => ?_, List.flatMap_congr⟩
  induction l with
  | nil => exact fun a ha => absurd ha List.not_mem_nil
  | cons a l ih =>
    obtain ⟨hhead, htail⟩ := List.forall_mem_cons.mp hlength
    have hle := length_flatMap_le htail
    rw [List.flatMap_cons, List.flatMap_cons] at h
    have hsum := congrArg List.length h
    rw [List.length_append, List.length_append] at hsum
    obtain ⟨ha, hl⟩ := List.append_inj h (by omega)
    exact List.forall_mem_cons.mpr ⟨ha, ih htail hl⟩

theorem isSystem_sizedElement (name : Text) (id : Nat) :
    isSystem (name ++ (leftover id ++ subscript id)) = isSystem name := by
  obtain ⟨rest, hrest⟩ := exists_leftover id
  rw [hrest, isSystem_append_bracket]

theorem isSystem_elementDeclarations {count : UInt32} {d : Declaration} (h : d ∈ elementDeclarations k name count) :
    isSystem d.name = isSystem name := by
  cases k with
  | basic type => rw [List.mem_singleton.mp h]; rfl
  | struct s =>
    rw [elementDeclarations] at h
    split at h
    · rw [List.mem_singleton.mp h]; rfl
    · obtain ⟨id, -, rfl⟩ := List.mem_map.mp h
      exact isSystem_append_bracket _

namespace UniformStatement

variable {s : UniformStatement}

theorem isSystem_of_mem_declared {d : Declaration} (h : d ∈ s.declared k) : isSystem d.name = isSystem s.name := by
  rw [declared] at h
  split at h
  · rw [List.mem_singleton.mp h, Kind.declare_name]
  · split at h
    · obtain ⟨id, -, hd⟩ := List.mem_flatMap.mp h
      rw [isSystem_elementDeclarations hd, isSystem_sizedElement]
    · rw [List.mem_singleton.mp h, Kind.declare_name]

theorem isSystem_of_mem_names (h : name ∈ s.names) : isSystem name = isSystem s.name := by
  rw [names] at h
  cases hsize : s.size with
  | none =>
    rw [hsize] at h
    rw [List.mem_singleton.mp h]
  | some n =>
    rw [hsize] at h
    obtain ⟨id, -, rfl⟩ := List.mem_map.mp h
    exact isSystem_append_bracket _

/-- An array in the system buffer, or of a type that is no struct, has one declaration for each element. -/
theorem declared_of_single {n : Nat} (hsize : s.size = some n) (hmany : 1 < n)
    (hsingle : ∀ name, isSystem name = isSystem s.name →
      elementDeclarations k name (.ofNat n) = [k.declare name (.ofNat n)]) :
    s.declared k = (List.range n).map fun i => k.declare (s.name ++ (leftover i ++ subscript i)) (.ofNat n) := by
  rw [declared, hsize]
  dsimp only
  rw [if_pos hmany, List.map_eq_flatMap]
  exact List.flatMap_congr fun i _ => hsingle _ (isSystem_sizedElement s.name i)

theorem elementDeclarations_single (h : isSystem name = true) (count : UInt32) :
    elementDeclarations k name count = [k.declare name count] := by
  cases k with
  | basic type => rfl
  | struct s => rw [elementDeclarations, if_pos h]; rfl

/-- The names of the elements are right until one has three digits in its subscript. -/
theorem map_leftover_eq_iff (name : Text) (n : Nat) :
    ((List.range n).map fun i => name ++ (leftover i ++ subscript i)) =
        ((List.range n).map fun i => name ++ subscript i) ↔ n ≤ 101 := by
  rw [List.map_inj_left]
  constructor
  · intro h
    by_contra hlt
    have hlast := h 101 (List.mem_range.mpr (by omega))
    rw [leftover_101] at hlast
    exact absurd (congrArg List.length hlast) (by simp)
  · intro hle i hi
    have hlt := List.mem_range.mp hi
    rw [leftover_of_le (by omega), List.nil_append]

theorem ite_ne {α : Type} {c : Prop} [Decidable c] {a b x : α} (ha : a ≠ x) (hb : b ≠ x) : (if c then a else b) ≠ x := by
  split
  · exact ha
  · exact hb

/-- A type that is known and no struct has between one and sixteen floats. -/
theorem bytes_of_basic {structs : List ShaderStruct} {t : UniformType} (h : kindOf structs typeString = some (.basic t)) :
    4 ≤ (sizeOfUniformType t).toNat ∧ (sizeOfUniformType t).toNat ≤ 64 := by
  rcases kindOf_cases h with ⟨-, s, -, hs⟩ | ⟨hbasic, ht⟩
  · cases hs
  · obtain rfl := Kind.basic.inj ht
    have hstruct : stringToType typeString 1 ≠ .STRUCT := by
      rw [stringToType]
      repeat' refine ite_ne ?_ ?_
      all_goals decide
    cases ht : stringToType typeString 1 with
    | NONE => exact absurd ht hbasic
    | STRUCT => exact absurd ht hstruct
    | _ => decide

theorem toNat_count {n : Nat} (h : n < 2 ^ 31) : (UInt32.ofNat n).toNat = n := by
  rw [UInt32.toNat_ofNat']
  exact Nat.mod_eq_of_lt (Nat.lt_trans h (by decide))

theorem length_elementDeclarations_pos (k : Kind) (name : Text) {n : Nat} (hmany : 1 < n) (hsize : n < 2 ^ 31) :
    0 < (elementDeclarations k name (.ofNat n)).length := by
  cases k with
  | basic type => exact Nat.one_pos
  | struct s =>
    rw [elementDeclarations]
    split
    · exact Nat.one_pos
    · rw [List.length_map, List.length_range, toNat_count hsize]
      omega

theorem length_names_le (s : UniformStatement) (k : Kind) (hsize : ∀ n ∈ s.size, n < 2 ^ 31) :
    s.names.length ≤ (s.declared k).length := by
  rw [names, declared]
  cases hn : s.size with
  | none => exact Nat.le_refl 1
  | some n =>
    rw [Option.elim_some, List.length_map]
    dsimp only
    split
    · next hmany =>
      have hle := length_flatMap_le (f := fun i : Nat => [i]) (l := List.range n) fun i _ =>
        length_elementDeclarations_pos k (s.name ++ (leftover i ++ subscript i)) hmany (hsize n hn)
      rwa [List.flatMap_singleton'] at hle
    · next hone =>
      rw [List.length_range]
      exact Nat.le_of_not_lt hone

/-- An array of one is registered under the name of the array. -/
theorem declared_ne_names {n : Nat} (hn : s.size = some n) (hone : ¬ 1 < n) (k : Kind) :
    (s.declared k).map (·.name) ≠ s.names := by
  rw [declared, names, hn, Option.elim_some]
  dsimp only
  rw [if_neg hone, List.map_singleton, Kind.declare_name]
  intro h
  have hlength := congrArg List.length h
  rw [List.length_map, List.length_range] at hlength
  obtain rfl : 1 = n := hlength
  have hname := congrArg List.length (List.cons.inj h).1
  rw [List.length_append, length_subscript] at hname
  omega

/-- In the system buffer only the names count. -/
theorem declared_system_iff (hsystem : isSystem s.name = true) (k : Kind) :
    (s.declared k).map (·.name) = s.names ↔ ∀ n ∈ s.size, 2 ≤ n ∧ n ≤ 101 := by
  cases hn : s.size with
  | none => simp [declared, names, hn]
  | some n =>
    simp only [Option.mem_def, Option.some.injEq, forall_eq']
    by_cases hmany : 1 < n
    · rw [declared_of_single hn hmany fun name hname => elementDeclarations_single (hname.trans hsystem) _,
        List.map_map, names, hn]
      simp only [Function.comp_def, Kind.declare_name, Option.elim_some]
      rw [map_leftover_eq_iff]
      exact (and_iff_right hmany).symm
    · exact iff_of_false (declared_ne_names hn hmany k) fun h => hmany h.1

/-- Each element of a basic type takes the room of the whole array. -/
theorem declared_basic_ne {n : Nat} {t : UniformType} (hn : s.size = some n) (hmany : 1 < n)
    (hbytes : 4 ≤ (sizeOfUniformType t).toNat ∧ (sizeOfUniformType t).toNat ≤ 64) :
    (s.declared (.basic t)).map (fun d => (d.name, d.size.toNat)) ≠
      s.names.map fun name => (name, (sizeOfUniformType t).toNat) := by
  intro h
  rw [declared_of_single hn hmany fun name _ => rfl, names, hn, Option.elim_some, List.map_map, List.map_map] at h
  have hle : n ≤ 101 := (map_leftover_eq_iff s.name n).mp
    (by simpa [Function.comp_def] using congrArg (List.map Prod.fst) h)
  have hsize := congrArg Prod.snd (List.map_inj_left.mp h 0 (List.mem_range.mpr (by omega)))
  simp only [Function.comp_def, Kind.declare_size, Kind.bytes, UInt32.toNat_mul, UInt32.toNat_ofNat'] at hsize
  generalize (sizeOfUniformType t).toNat = b at *
  have hmul : b * n ≤ 64 * 101 := Nat.mul_le_mul hbytes.2 hle
  rw [Nat.mod_eq_of_lt (by omega : n < 2 ^ 32), Nat.mod_eq_of_lt (by omega)] at hsize
  have htwo : b * 2 ≤ b * n := Nat.mul_le_mul_left b hmany
  omega

/-- A struct is declared as often again for each element. -/
theorem declared_struct_ne {n : Nat} {st : ShaderStruct} (hn : s.size = some n) (hmany : 1 < n) (hsize : n < 2 ^ 31)
    (huser : isSystem s.name = false) : (s.declared (.struct st)).map (·.name) ≠ s.names := by
  intro h
  have hlength := congrArg List.length h
  rw [declared, names, hn, Option.elim_some] at hlength
  dsimp only at hlength
  rw [if_pos hmany, List.length_map, List.length_map, List.length_range] at hlength
  have hle := length_flatMap_le (f := fun i : Nat => [i, i])
    (g := fun i => elementDeclarations (.struct st) (s.name ++ (leftover i ++ subscript i)) (.ofNat n))
    (l := List.range n) fun i _ => by
      rw [elementDeclarations, if_neg (by rw [isSystem_sizedElement, huser]; decide), List.length_map, List.length_range,
        toNat_count hsize]
      exact hmany
  rw [hlength] at hle
  simp [List.length_flatMap] at hle
  omega

/-- In the user buffer no array has its elements with their sizes. -/
theorem declared_user_iff {structs : List ShaderStruct} (hkind : kindOf structs s.type = some k)
    (huser : isSystem s.name = false) (hsize : ∀ n ∈ s.size, n < 2 ^ 31) :
    (s.declared k).map (fun d => (d.name, d.size.toNat)) = s.elements structs ↔ s.size = none := by
  rw [elements, hkind, Option.elim_some]
  cases hn : s.size with
  | none => simp [declared, names, hn]
  | some n =>
    refine iff_of_false (fun h => ?_) (Option.some_ne_none n)
    have hnames : (s.declared k).map (·.name) = s.names := by
      have hfst := congrArg (List.map Prod.fst) h
      rw [List.map_map, List.map_map] at hfst
      exact hfst.trans (List.map_id _)
    by_cases hmany : 1 < n
    · cases k with
      | basic t => exact declared_basic_ne hn hmany (bytes_of_basic hkind) h
      | struct st => exact declared_struct_ne hn hmany (hsize n hn) huser hnames
    · exact declared_ne_names hn hmany k hnames

variable {structs : List ShaderStruct}

theorem filter_of_forall {α : Type} {f : α → Bool} {c : Bool} {l : List α} (h : ∀ a ∈ l, f a = c) (b : Bool) :
    l.filter (fun a => f a == b) = if c == b then l else [] := by
  split
  · next hcb => exact List.filter_eq_self.mpr fun a ha => by rwa [h a ha]
  · next hcb => exact List.filter_eq_nil_iff.mpr fun a ha => by rwa [h a ha]

/-- A statement belongs into one buffer as a whole. -/
theorem filter_registered (b : Bool) (s : UniformStatement) (structs : List ShaderStruct) :
    (s.registered structs).filter (fun d => isSystem d.name == b) =
      if isSystem s.name == b then s.registered structs else [] := by
  refine filter_of_forall ?_ b
  rw [registered]
  cases kindOf structs s.type with
  | none => exact fun d hd => absurd hd List.not_mem_nil
  | some k => exact fun d => isSystem_of_mem_declared

theorem filter_elements (b : Bool) (s : UniformStatement) (structs : List ShaderStruct) :
    (s.elements structs).filter (fun element => isSystem element.1 == b) =
      if isSystem s.name == b then s.elements structs else [] := by
  refine filter_of_forall (fun element helement => ?_) b
  obtain ⟨name, hname, rfl⟩ := List.mem_map.mp helement
  exact isSystem_of_mem_names hname

theorem map_fst_elements (s : UniformStatement) (structs : List ShaderStruct) :
    (s.elements structs).map Prod.fst = s.names := by
  rw [elements, List.map_map]
  exact List.map_id _

theorem registered_system_iff (htype : (kindOf structs s.type).isSome) :
    ((s.registered structs).filter fun d => isSystem d.name == true).map (·.name) =
        ((s.elements structs).filter fun element => isSystem element.1 == true).map Prod.fst ↔
      (isSystem s.name = true → ∀ n ∈ s.size, 2 ≤ n ∧ n ≤ 101) := by
  obtain ⟨k, hk⟩ := Option.isSome_iff_exists.mp htype
  rw [filter_registered, filter_elements]
  by_cases hsystem : isSystem s.name = true
  · simp only [hsystem, beq_self_eq_true, if_true, forall_const]
    rw [map_fst_elements, registered, hk]
    exact declared_system_iff hsystem k
  · simp [hsystem]

theorem registered_user_iff (htype : (kindOf structs s.type).isSome) (hsize : ∀ n ∈ s.size, n < 2 ^ 31) :
    ((s.registered structs).filter fun d => isSystem d.name == false).map (fun d => (d.name, d.size.toNat)) =
        (s.elements structs).filter (fun element => isSystem element.1 == false) ↔
      (isSystem s.name = false → s.size = none) := by
  obtain ⟨k, hk⟩ := Option.isSome_iff_exists.mp htype
  rw [filter_registered, filter_elements]
  by_cases huser : isSystem s.name = false
  · simp only [huser, beq_self_eq_true, if_true, forall_const]
    rw [registered, hk]
    exact declared_user_iff hk huser hsize
  · simp [huser]

theorem length_filter_elements_le (htype : (kindOf structs s.type).isSome) (hsize : ∀ n ∈ s.size, n < 2 ^ 31) (b : Bool) :
    ((s.elements structs).filter fun element => isSystem element.1 == b).length ≤
      ((s.registered structs).filter fun d => isSystem d.name == b).length := by
  obtain ⟨k, hk⟩ := Option.isSome_iff_exists.mp htype
  rw [filter_registered, filter_elements]
  split
  · rw [registered, hk, elements, List.length_map]
    exact length_names_le s k hsize
  · exact Nat.le_refl 0

/-- What the conditions on the two buffers come to for a statement. -/
theorem fits_iff (htype : (kindOf structs s.type).isSome) :
    Fits structs s ↔ (isSystem s.name = true → ∀ n ∈ s.size, 2 ≤ n ∧ n ≤ 101) ∧
      (isSystem s.name = false → s.size = none) := by
  rw [Fits, and_iff_right htype]
  cases hn : s.size <;> cases hsystem : isSystem s.name <;> simp

end UniformStatement

/-! ## All statements -/

theorem map_prod_eq_iff {α β γ : Type} {f : α → β} {g : α → γ} {l : List α} {m : List (β × γ)} :
    l.map (fun a => (f a, g a)) = m ↔ l.map f = m.map Prod.fst ∧ l.map g = m.map Prod.snd := by
  induction l generalizing m with
  | nil => cases m <;> simp
  | cons a l ih =>
    cases m with
    | nil => simp
    | cons p m =>
      rw [List.map_cons, List.map_cons, List.map_cons, List.map_cons, List.map_cons, List.cons.injEq, List.cons.injEq,
        List.cons.injEq, ih, Prod.ext_iff]
      tauto

/-- The user buffer is laid out well where each declaration has the size of its element, and the sizes have a sum. -/
theorem laysOut_iff {structs : List ShaderStruct} {statements : List UniformStatement}
    (hadds : Adds type declarations u u') (hsystem : systemBuffer u type = {}) (huser : userBuffer u type = {})
    (htypes : ∀ s ∈ statements, (kindOf structs s.type).isSome) :
    LaysOut type structs statements u' ↔
      (declarations.filter fun d => isSystem d.name).map (·.name) = (systemElements structs statements).map Prod.fst ∧
      (declarations.filter fun d => !isSystem d.name).map (fun d => (d.name, d.size.toNat)) =
        userElements structs statements ∧ ((userElements structs statements).map Prod.snd).sum < 2 ^ 32 := by
  have hsystem' := hadds.system
  have huser' := hadds.user
  rw [hsystem, foldl_pushUniform _ rfl] at hsystem'
  rw [huser, foldl_pushUniform _ rfl] at huser'
  rw [map_prod_eq_iff]
  generalize declarations.filter (fun d => isSystem d.name) = system at *
  generalize declarations.filter (fun d => !isSystem d.name) = user at *
  have hlength (hnames : user.map (·.name) = (userElements structs statements).map Prod.fst) :
      user.length = ((userElements structs statements).map Prod.snd).length := by
    simpa using congrArg List.length hnames
  constructor
  · intro h
    have hnames := h.user
    have hoffset := h.offset
    have hsize := h.size
    have hsystemNames := h.system
    rw [hsystem', List.nil_append, map_name_place] at hsystemNames
    rw [huser', List.nil_append, map_name_place] at hnames
    rw [huser', List.nil_append] at hoffset
    rw [huser'] at hsize
    obtain ⟨hbytes, hlt⟩ := (place_iff (hlength hnames) 0).mp ⟨hoffset, by rw [hsize]; exact (Nat.zero_add _).symm⟩
    exact ⟨hsystemNames, ⟨hnames, hbytes⟩, by rwa [UInt32.toNat_zero, Nat.zero_add] at hlt⟩
  · rintro ⟨hsystemNames, ⟨hnames, hbytes⟩, hlt⟩
    obtain ⟨hoffset, hsize⟩ := (place_iff (hlength hnames) 0).mpr ⟨hbytes, by rwa [UInt32.toNat_zero, Nat.zero_add]⟩
    refine ⟨htypes, ?_, ?_, ?_, ?_⟩
    · rw [hsystem', List.nil_append, map_name_place, hsystemNames]
    · rw [huser', List.nil_append, map_name_place, hnames]
    · rw [huser', List.nil_append]
      exact hoffset
    · rw [huser']
      exact hsize.trans (Nat.zero_add _)

section Statements

variable {structs : List ShaderStruct} {statements : List UniformStatement}
  (htypes : ∀ s ∈ statements, (kindOf structs s.type).isSome) (hsize : ∀ s ∈ statements, ∀ n ∈ s.size, n < 2 ^ 31)

include htypes hsize

theorem system_iff :
    ((statements.flatMap (·.registered structs)).filter fun d => isSystem d.name).map (·.name) =
        (systemElements structs statements).map Prod.fst ↔
      ∀ s ∈ statements, isSystem s.name = true → ∀ n ∈ s.size, 2 ≤ n ∧ n ≤ 101 := by
  have hpieces := flatMap_eq_iff (l := statements)
    (f := fun s => ((s.elements structs).filter fun element => isSystem element.1 == true).map Prod.fst)
    (g := fun s => ((s.registered structs).filter fun d => isSystem d.name == true).map (·.name))
    fun s hs => by
      rw [List.length_map, List.length_map]
      exact UniformStatement.length_filter_elements_le (htypes s hs) (hsize s hs) true
  simp only [systemElements, List.filter_flatMap, List.map_flatMap]
  simp only [beq_true] at hpieces
  rw [hpieces]
  refine forall₂_congr fun s hs => ?_
  have hpiece := UniformStatement.registered_system_iff (htypes s hs)
  simpa only [beq_true] using hpiece

theorem user_iff :
    ((statements.flatMap (·.registered structs)).filter fun d => !isSystem d.name).map
        (fun d => (d.name, d.size.toNat)) = userElements structs statements ↔
      ∀ s ∈ statements, isSystem s.name = false → s.size = none := by
  have hpieces := flatMap_eq_iff (l := statements)
    (f := fun s => (s.elements structs).filter fun element => isSystem element.1 == false)
    (g := fun s => ((s.registered structs).filter fun d => isSystem d.name == false).map
      fun d => (d.name, d.size.toNat))
    fun s hs => by
      rw [List.length_map]
      exact UniformStatement.length_filter_elements_le (htypes s hs) (hsize s hs) false
  simp only [userElements, List.filter_flatMap, List.map_flatMap]
  simp only [beq_false] at hpieces
  rw [hpieces]
  refine forall₂_congr fun s hs => ?_
  have hpiece := UniformStatement.registered_user_iff (htypes s hs) (hsize s hs)
  simpa only [beq_false] using hpiece

end Statements

/-- From a stage that has just begun, `ParseUniform` registers the elements with their places exactly when all types
are known, there are arrays of 2 to 101 elements in the system buffer only, and the sizes have a sum. -/
theorem registers_iff {type : ShaderType} {u : Uniforms} (hsystem : u.uniformBuffers type = [{}])
    (huser : u.userUniformBuffers type = none) (statements : List UniformStatement) :
    Registers type statements u ↔
      (∀ s ∈ statements, Fits u.structs s) ∧ ((userElements u.structs statements).map Prod.snd).sum < 2 ^ 32 := by
  have hbuffers : u.uniformBuffers type ≠ [] := by simp [hsystem]
  have hempty : systemBuffer u type = {} := by rw [systemBuffer, hsystem]; rfl
  have hempty' : userBuffer u type = {} := by rw [userBuffer, huser]; rfl
  by_cases hready : (∀ s ∈ statements, (kindOf u.structs s.type).isSome) ∧ ∀ s ∈ statements, ∀ n ∈ s.size, n < 2 ^ 31
  · obtain ⟨htypes, hsize⟩ := hready
    obtain ⟨v, hv, hadds⟩ := adds_parseUniforms hbuffers htypes hsize
    have hregisters : Registers type statements u ↔ LaysOut type u.structs statements v := by
      constructor
      · rintro ⟨u', hu', h⟩
        rw [hv] at hu'
        obtain rfl := Except.ok.inj hu'
        exact h
      · exact fun h => ⟨v, hv, h⟩
    rw [hregisters, laysOut_iff hadds hempty hempty' htypes, ← and_assoc]
    refine and_congr_left fun _ => ?_
    rw [system_iff htypes hsize, user_iff htypes hsize]
    refine ⟨fun h s hs => ?_, fun h => ⟨fun s hs => ?_, fun s hs => ?_⟩⟩
    · exact (UniformStatement.fits_iff (htypes s hs)).mpr ⟨h.1 s hs, h.2 s hs⟩
    · exact ((UniformStatement.fits_iff (htypes s hs)).mp (h s hs)).1
    · exact ((UniformStatement.fits_iff (htypes s hs)).mp (h s hs)).2
  · refine iff_of_false ?_ fun h => hready ⟨fun s hs => (h.1 s hs).1, fun s hs n hn => ?_⟩
    · rintro ⟨u', hu', h⟩
      exact hready ⟨h.types, lt_of_parseUniforms hu'⟩
    · have hle := ((h.1 s hs).2 n hn).2.2
      omega

/-- The first of two colours takes the room of both. -/
theorem colours_not_registers : ∃ s : UniformStatement, s.text = "uniform vec4 colours[2];".toList ∧
    ¬ Registers .vertex [s] (({} : Uniforms).beginStage .vertex) := by
  refine ⟨⟨"uniform vec4 colours[2];".toList, "vec4".toList, "colours".toList, some 2, by decide +kernel,
    by decide, by decide +kernel⟩, rfl, ?_⟩
  rintro ⟨u', hu', h⟩
  have hregistered : (parseUniform .vertex "uniform vec4 colours[2];".toList (({} : Uniforms).beginStage .vertex)).map
      (fun u => (userBuffer u .vertex).size.toNat) = .ok 64 := by decide +kernel
  rw [parseUniforms_cons] at hu'
  cases hparse : parseUniform .vertex "uniform vec4 colours[2];".toList (({} : Uniforms).beginStage .vertex) with
  | error stop =>
    rw [hparse] at hu'
    cases hu'
  | ok v =>
    rw [hparse] at hu' hregistered
    obtain rfl : v = u' := Except.ok.inj hu'
    have hsize := h.size
    rw [show (userBuffer v .vertex).size.toNat = 64 from Except.ok.inj hregistered] at hsize
    exact absurd hsize (by decide +kernel)

theorem registers_of_two : ∃ s s' : UniformStatement, s.text = "uniform vec4 colour;".toList ∧
    s'.text = "uniform mat4 sys_light[4];".toList ∧
    Registers .vertex [s, s'] (({} : Uniforms).beginStage .vertex) := by
  refine ⟨⟨"uniform vec4 colour;".toList, "vec4".toList, "colour".toList, none, by decide +kernel,
    by decide, by decide +kernel⟩, ⟨"uniform mat4 sys_light[4];".toList, "mat4".toList, "sys_light".toList, some 4,
    by decide +kernel, by decide, by decide +kernel⟩, rfl, rfl, ?_⟩
  refine (registers_iff (by decide) rfl _).mpr ⟨?_, ?_⟩
  · intro s hs
    rcases List.mem_pair.mp hs with rfl | rfl
    · exact ⟨by decide, fun n hn => by cases hn⟩
    · refine ⟨by decide, fun n hn => ?_⟩
      obtain rfl : 4 = n := Option.some.inj hn
      decide
  · decide +kernel

end Uniforms

end Lumos.Graphics.GLShader
