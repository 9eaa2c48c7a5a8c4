import Mathlib.Data.List.AList
import Mathlib.Data.List.Infix
import Lumos.Core.StringUtilities
import Lumos.Library.MaximalRuns

/-!
# `VFS`

Virtual paths begin with two slashes and the name of a mount point, which stands for one of
the roots mounted there. Physical paths are turned into virtual ones by looking for a root in
them.
-/
namespace Lumos.Core

open StringUtilities Squeeze

/-- `m_MountPoints`, in the order in which they happen to be walked. -/
abbrev VFS := AList fun _ : Text => List Text

namespace VFS

/-- Where nothing is mounted there are no roots. -/
def roots (v : VFS) (name : Text) : List Text := (AList.lookup name v).getD []

def mount (v : VFS) (virtualPath physicalPath : Text) : VFS :=
  AList.insert virtualPath (v.roots virtualPath ++ [physicalPath]) v

def unmount (v : VFS) (path : Text) : VFS := AList.insert path [] v

/-- A path that is used as it is. -/
def checked (fileExists : Text → Bool) (path : Text) : Option Text := if fileExists path then some path else none

/-- The path found, and nothing where the result is false. The first directory of a path of
slashes only is not there. -/
def resolvePhysicalPath (v : VFS) (fileExists : Text → Bool) (path : Text) : Option Text :=
  if path.getD 0 '\x00' ≠ '/' ∧ path.getD 1 '\x00' ≠ '/' then checked fileExists path
  else
    match splitString path ['/', '/'] with
    | [] => none
    | virtualDir :: _ =>
      if v.roots virtualDir = [] then checked fileExists path
      else
        let remainder := path.drop (virtualDir.length + 2)
        ((v.roots virtualDir).map fun physicalPath => physicalPath ++ '/' :: remainder).find? fileExists

/-- The virtual path, and nothing where the result is false. -/
def absoulePathToVFS (v : VFS) (path : Text) : Option Text :=
  v.entries.findSome? fun mountPoint => mountPoint.2.findSome? fun vfsPath =>
    if vfsPath <:+: path then some ('/' :: '/' :: mountPoint.1 ++ path.drop vfsPath.length) else none

/-! ## The root that is found -/

/-- The first mount point with a root that occurs in the path, and that root. -/
def firstMount (v : VFS) (path : Text) : Option (Text × Text) :=
  v.entries.findSome? fun mountPoint => (mountPoint.2.find? (· <:+: path)).map fun root => (mountPoint.1, root)

theorem findSome?_ite {path key : Text} (mounted : List Text) :
    (mounted.findSome? fun vfsPath =>
      if vfsPath <:+: path then some ('/' :: '/' :: key ++ path.drop vfsPath.length) else none) =
      (mounted.find? (· <:+: path)).map fun root => '/' :: '/' :: key ++ path.drop root.length := by
  induction mounted with
  | nil => rfl
  | cons root mounted ih =>
    by_cases h : root <:+: path
    · simp [h]
    · simpa [h] using ih

theorem absoulePathToVFS_eq (v : VFS) (path : Text) :
    v.absoulePathToVFS path =
      (v.firstMount path).map fun found => '/' :: '/' :: found.1 ++ path.drop found.2.length := by
  rw [absoulePathToVFS, firstMount, List.map_findSome?]
  congr 1
  funext mountPoint
  rw [findSome?_ite, Function.comp_apply, Option.map_map]
  rfl

/-! ## Virtual paths -/

/-- Paths of one file. -/
def SameFile (path other : Text) : Prop := squeeze '/' path = squeeze '/' other

instance (path other : Text) : Decidable (SameFile path other) := inferInstanceAs (Decidable (_ = _))

/-- A virtual path, without its two slashes, leads to a file: a root of its first component
followed by the rest does, or the virtual path itself if nothing is mounted there. -/
def LeadsTo (v : VFS) (virtual path : Text) : Prop :=
  ∃ name ∈ (splitString virtual ['/']).head?,
    if v.roots name = [] then SameFile ('/' :: '/' :: virtual) path
    else ∃ root ∈ v.roots name, SameFile (root ++ '/' :: virtual.drop name.length) path

theorem splitString_slashes (virtual : Text) :
    splitString ('/' :: '/' :: virtual) ['/', '/'] = splitString virtual ['/'] := by
  rw [splitString_cons _ (by simp), splitString_cons _ (by simp), splitString, splitString]
  simp

theorem exists_find?_iff {files : List Text} {path : Text} :
    (∃ back, files.find? (fun file => decide (SameFile file path)) = some back ∧ SameFile back path) ↔
      ∃ file ∈ files, SameFile file path := by
  constructor
  · rintro ⟨back, hback, hsame⟩
    exact ⟨back, List.mem_of_find?_eq_some hback, hsame⟩
  · rintro ⟨file, hfile, hsame⟩
    have hsome : (files.find? fun file => decide (SameFile file path)).isSome := by
      rw [List.find?_isSome]
      exact ⟨file, hfile, decide_eq_true hsame⟩
    obtain ⟨back, hback⟩ := Option.isSome_iff_exists.mp hsome
    exact ⟨back, hback, by simpa using List.find?_some hback⟩

/-- The virtual path is resolved to the only file there is exactly when it leads there. -/
theorem resolvePhysicalPath_virtual (v : VFS) (virtual path : Text) :
    (∃ back, v.resolvePhysicalPath (fun file => decide (SameFile file path)) ('/' :: '/' :: virtual) = some back ∧
      SameFile back path) ↔ v.LeadsTo virtual path := by
  have hslash : ¬ (('/' :: '/' :: virtual).getD 0 '\x00' ≠ '/' ∧ ('/' :: '/' :: virtual).getD 1 '\x00' ≠ '/') := by
    simp
  rw [resolvePhysicalPath, if_neg hslash, splitString_slashes, LeadsTo]
  cases splitString virtual ['/'] with
  | nil => simp
  | cons name rest =>
    by_cases hroots : v.roots name = []
    · simp [hroots, checked]
    · have hremainder : ('/' :: '/' :: virtual).drop (name.length + 2) = virtual.drop name.length := rfl
      simp only [hroots, if_false, hremainder, exists_find?_iff, List.mem_map, List.head?_cons, Option.mem_some_iff,
        exists_eq_left']
      exact ⟨fun ⟨file, ⟨root, hroot, hfile⟩, hsame⟩ => ⟨root, hroot, hfile ▸ hsame⟩,
        fun ⟨root, hroot, hsame⟩ => ⟨_, ⟨root, hroot, rfl⟩, hsame⟩⟩

/-! ## Named mount points -/

/-- A name that can be the first component of a virtual path. -/
def Named (name : Text) : Prop := name ≠ [] ∧ '/' ∉ name

theorem Named.not_mem {name : Text} (h : Named name) : ∀ c ∈ name, c ∉ ['/'] := by
  intro c hc hmem
  rw [List.mem_singleton.mp hmem] at hc
  exact h.2 hc

theorem splitString_component {name : Text} (h : Named name) (tail : Text) :
    (splitString (name ++ '/' :: tail) ['/']).head? = some name := by
  rw [splitString_token_cons h.1 h.not_mem tail (List.mem_singleton_self '/')]
  rfl

theorem splitString_last_component {name : Text} (h : Named name) :
    (splitString name ['/']).head? = some name := by
  rw [splitString_of_forall_not_mem h.1 h.not_mem]
  rfl

/-- The path goes on within the name: with the next component it is the name of a mount point that
has the folder of that component as a root. -/
def ContinuedBy (v : VFS) (key root rest : Text) : Prop :=
  ∃ component tail, component ≠ [] ∧ '/' ∉ component ∧ rest = component ++ '/' :: tail ∧
    ∃ other ∈ v.roots (key ++ component), SameFile (other ++ ['/']) (root ++ component ++ ['/'])

variable {v : VFS} {key root : Text}

/-- A slash behind the root. -/
theorem leadsTo_slash (hkey : Named key) (hroot : root ∈ v.roots key) (tail : Text) :
    v.LeadsTo (key ++ '/' :: tail) (root ++ '/' :: tail) := by
  refine ⟨key, splitString_component hkey tail, ?_⟩
  rw [if_neg (List.ne_nil_of_mem hroot), List.drop_left]
  exact ⟨root, hroot, squeeze_append_cons_cons root tail⟩

/-- Nothing behind the root. A slash is put there. -/
theorem leadsTo_root_iff (hkey : Named key) (hroot : root ∈ v.roots key) :
    v.LeadsTo key root ↔ root.getLast? = some '/' := by
  constructor
  · rintro ⟨name, hname, hleads⟩
    rw [splitString_last_component hkey, Option.mem_some_iff] at hname
    subst hname
    rw [if_neg (List.ne_nil_of_mem hroot), List.drop_length] at hleads
    obtain ⟨other, -, hsame⟩ := hleads
    have hlast := congrArg List.getLast? hsame
    rw [getLast?_squeeze, getLast?_squeeze, List.getLast?_concat] at hlast
    exact hlast.symm
  · intro hlast
    obtain ⟨front, rfl⟩ := List.getLast?_eq_some_iff.mp hlast
    refine ⟨key, splitString_last_component hkey, ?_⟩
    rw [if_neg (List.ne_nil_of_mem hroot), List.drop_length]
    refine ⟨front ++ ['/'], hroot, ?_⟩
    rw [SameFile, List.append_assoc]
    exact squeeze_append_cons_cons front []

/-- Where the name goes on, the virtual path itself is never the path. -/
theorem not_sameFile_virtual (hkey : Named key) (hlast : root.getLast? = some '/') {rest : Text}
    (hrest : rest.head? ≠ some '/') : ¬ SameFile ('/' :: '/' :: (key ++ rest)) (root ++ rest) := by
  intro hsame
  have hslashes : '/' :: '/' :: (key ++ rest) = ('/' :: '/' :: key) ++ rest := by simp
  rw [SameFile, hslashes, squeeze_append hrest, squeeze_append hrest, List.append_cancel_right_eq] at hsame
  have hends := congrArg List.getLast? hsame
  rw [getLast?_squeeze, getLast?_squeeze, hlast, List.getLast?_cons_cons, List.getLast?_cons_of_ne_nil hkey.1] at hends
  exact hkey.2 (List.mem_of_getLast? hends)

theorem named_append {component : Text} (hkey : Named key) (hslash : '/' ∉ component) : Named (key ++ component) := by
  constructor
  · simp [hkey.1]
  · simp [hkey.2, hslash]

/-- The name goes on, behind a root that ends with a slash. -/
theorem leadsTo_continued_iff (hkey : Named key) (hlast : root.getLast? = some '/') {component tail : Text}
    (hne : component ≠ []) (hslash : '/' ∉ component) :
    v.LeadsTo (key ++ (component ++ '/' :: tail)) (root ++ (component ++ '/' :: tail)) ↔
      ∃ other ∈ v.roots (key ++ component), SameFile (other ++ ['/']) (root ++ component ++ ['/']) := by
  have hname := splitString_component (named_append hkey hslash) tail
  have hhead : (component ++ '/' :: tail).head? ≠ some '/' := by
    cases component with
    | nil => exact absurd rfl hne
    | cons c component =>
      intro hc
      exact hslash (by rw [← Option.some.inj hc]; exact List.mem_cons_self)
  have hsame : ∀ other : Text, SameFile (other ++ '/' :: '/' :: tail) (root ++ (component ++ '/' :: tail)) ↔
      SameFile (other ++ ['/']) (root ++ component ++ ['/']) := by
    intro other
    rw [SameFile, squeeze_append_cons_cons, ← List.append_assoc]
    exact squeeze_append_separator_eq_iff tail
  have hnever := not_sameFile_virtual hkey hlast hhead
  rw [← List.append_assoc] at hnever
  rw [LeadsTo, ← List.append_assoc, hname]
  simp only [Option.mem_some_iff, exists_eq_left', List.drop_left, hsame]
  by_cases hroots : v.roots (key ++ component) = []
  · simp only [hroots, if_true, List.not_mem_nil, false_and, exists_false, iff_false]
    exact hnever
  · simp only [hroots, if_false]

/-- The name goes on until the end of the path. -/
theorem not_leadsTo_last (hkey : Named key) (hlast : root.getLast? = some '/') {component : Text}
    (hne : component ≠ []) (hslash : '/' ∉ component) : ¬ v.LeadsTo (key ++ component) (root ++ component) := by
  rintro ⟨name, hname, hleads⟩
  rw [splitString_last_component (named_append hkey hslash), Option.mem_some_iff] at hname
  subst hname
  split at hleads
  · have hhead : component.head? ≠ some '/' := fun hhead => hslash (List.mem_of_head? hhead)
    exact not_sameFile_virtual hkey hlast hhead hleads
  · obtain ⟨other, -, hsame⟩ := hleads
    rw [List.drop_length] at hsame
    have hends := congrArg List.getLast? hsame
    rw [getLast?_squeeze, getLast?_squeeze, List.getLast?_concat, List.getLast?_append_of_ne_nil _ hne] at hends
    exact hslash (List.mem_of_getLast? hends.symm)

/-- The root ends where a component of the path does. -/
def WholePrefix (root path : Text) : Prop :=
  ∃ rest, path = root ++ rest ∧ (rest = [] ∨ rest.head? = some '/' ∨ root.getLast? = some '/')

theorem getLast?_of_whole {component tail : Text} (hne : component ≠ []) (hslash : '/' ∉ component)
    (hwhole : component ++ '/' :: tail = [] ∨ (component ++ '/' :: tail).head? = some '/' ∨
      root.getLast? = some '/') : root.getLast? = some '/' := by
  rcases hwhole with hnil | hhead | hlast
  · exact absurd hnil (by simp)
  · rw [List.head?_append_of_ne_nil _ hne] at hhead
    exact absurd (List.mem_of_head? hhead) hslash
  · exact hlast

/-- What leads back from a named mount point. -/
theorem leadsTo_iff_of_named (hkey : Named key) (hroot : root ∈ v.roots key) {rest : Text}
    (hwhole : rest = [] ∨ rest.head? = some '/' ∨ root.getLast? = some '/') :
    v.LeadsTo (key ++ rest) (root ++ rest) ↔
      rest.head? = some '/' ∨ rest = [] ∧ root.getLast? = some '/' ∨ v.ContinuedBy key root rest := by
  constructor
  · intro hleads
    by_cases hslash : '/' ∈ rest
    · obtain ⟨component, tail, rfl, hcomponent⟩ := List.eq_append_cons_of_mem hslash
      by_cases hne : component = []
      · subst hne
        exact Or.inl rfl
      · have hlast := getLast?_of_whole hne hcomponent hwhole
        exact Or.inr (Or.inr ⟨component, tail, hne, hcomponent, rfl,
          (leadsTo_continued_iff hkey hlast hne hcomponent).mp hleads⟩)
    · rcases hwhole with rfl | hhead | hlast
      · rw [List.append_nil, List.append_nil, leadsTo_root_iff hkey hroot] at hleads
        exact Or.inr (Or.inl ⟨rfl, hleads⟩)
      · exact Or.inl hhead
      · by_cases hnil : rest = []
        · exact Or.inr (Or.inl ⟨hnil, hlast⟩)
        · exact absurd hleads (not_leadsTo_last hkey hlast hnil hslash)
  · rintro (hhead | ⟨rfl, hlast⟩ | ⟨component, tail, hne, hslash, rfl, hother⟩)
    · obtain ⟨tail, rfl⟩ := List.head?_eq_some_iff.mp hhead
      exact leadsTo_slash hkey hroot tail
    · rw [List.append_nil, List.append_nil, leadsTo_root_iff hkey hroot]
      exact hlast
    · have hlast := getLast?_of_whole hne hslash hwhole
      exact (leadsTo_continued_iff hkey hlast hne hslash).mpr hother

/-! ## Back again -/

theorem mem_roots_of_firstMount {path : Text} (h : v.firstMount path = some (key, root)) : root ∈ v.roots key := by
  obtain ⟨mountPoint, hmem, hfound⟩ := List.exists_of_findSome?_eq_some h
  obtain ⟨found, hfind, heq⟩ := Option.map_eq_some_iff.mp hfound
  cases heq
  have hlookup : AList.lookup mountPoint.1 v = some mountPoint.2 := AList.mem_lookup_iff.mpr hmem
  rw [roots, hlookup]
  exact List.mem_of_find?_eq_some hfind

/-- What is behind the root decides, where the mount point has a name. -/
def Rejoins (v : VFS) (key root rest : Text) : Prop :=
  (Named key → rest.head? = some '/' ∨ rest = [] ∧ root.getLast? = some '/' ∨ v.ContinuedBy key root rest) ∧
    (¬ Named key → v.LeadsTo (key ++ rest) (root ++ rest))

theorem rejoins_iff {rest : Text} (hroot : root ∈ v.roots key)
    (hwhole : rest = [] ∨ rest.head? = some '/' ∨ root.getLast? = some '/') :
    v.Rejoins key root rest ↔ v.LeadsTo (key ++ rest) (root ++ rest) := by
  by_cases hkey : Named key
  · rw [leadsTo_iff_of_named hkey hroot hwhole]
    exact ⟨fun h => h.1 hkey, fun h => ⟨fun _ => h, fun hnot => absurd hkey hnot⟩⟩
  · exact ⟨fun h => h.2 hkey, fun h => ⟨fun hnamed => absurd hnamed hkey, fun _ => h⟩⟩

/-- A virtual path is resolved to where it came from exactly when it leads there. -/
theorem resolves_iff_leadsTo (v : VFS) (path : Text) :
    (∀ virtual, v.absoulePathToVFS path = some virtual →
      ∃ back, v.resolvePhysicalPath (fun file => decide (SameFile file path)) virtual = some back ∧
        SameFile back path) ↔
      ∀ key root, v.firstMount path = some (key, root) → v.LeadsTo (key ++ path.drop root.length) path := by
  simp only [absoulePathToVFS_eq, Option.map_eq_some_iff, ← resolvePhysicalPath_virtual]
  constructor
  · intro h key root hfirst
    exact h _ ⟨(key, root), hfirst, rfl⟩
  · rintro h virtual ⟨⟨key, root⟩, hfirst, rfl⟩
    exact h key root hfirst

/-- A physical path comes back from its virtual path, and only whole components of it have been
replaced, exactly when the first root that occurs in it, if one does, ends where a component
does, and what is behind it is not taken for a part of the name. -/
theorem resolves_back_iff (v : VFS) (path : Text) :
    ((∀ virtual, v.absoulePathToVFS path = some virtual →
        ∃ back, v.resolvePhysicalPath (fun file => decide (SameFile file path)) virtual = some back ∧
          SameFile back path) ∧
      ∀ key root, v.firstMount path = some (key, root) → WholePrefix root path) ↔
      ∀ key root, v.firstMount path = some (key, root) →
        WholePrefix root path ∧ v.Rejoins key root (path.drop root.length) := by
  rw [resolves_iff_leadsTo]
  constructor
  · rintro ⟨hleads, hwhole⟩ key root hfirst
    obtain ⟨rest, rfl, hrest⟩ := hwhole key root hfirst
    have hback := hleads key root hfirst
    rw [List.drop_left] at hback ⊢
    exact ⟨⟨rest, rfl, hrest⟩, (rejoins_iff (mem_roots_of_firstMount hfirst) hrest).mpr hback⟩
  · intro h
    constructor
    · intro key root hfirst
      obtain ⟨⟨rest, rfl, hrest⟩, hrejoins⟩ := h key root hfirst
      rw [List.drop_left] at hrejoins ⊢
      exact (rejoins_iff (mem_roots_of_firstMount hfirst) hrest).mp hrejoins
    · exact fun key root hfirst => (h key root hfirst).1

/-- The root is found at the front, but in the middle of a component. -/
theorem resolves_to_other_directory :
    ∃ virtual, absoulePathToVFS (AList.singleton "Textures".toList ["/game/Textures".toList])
        "/game/Textures2/a.png".toList = some virtual ∧
      resolvePhysicalPath (AList.singleton "Textures".toList ["/game/Textures".toList])
        (fun file => decide (SameFile file "/game/Textures2/a.png".toList)) virtual = none :=
  ⟨"//Textures2/a.png".toList, by decide, by decide⟩

end VFS

end Lumos.Core
