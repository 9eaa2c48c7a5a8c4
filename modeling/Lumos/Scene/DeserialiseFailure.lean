import Lumos.Scene.SceneArchive

/-!
# A load that fails

What a file lists up to the place where it breaks off is described without a registry. A load
that throws has put exactly that into the cleared registry.
-/
namespace Lumos.Serialisation

open Maths Library Library.Archive

variable {K ε : Type} [FloatLiterals K]

/-- A component with its entity. -/
structure Placement (K ε : Type) where
  type : ComponentType
  entity : ε
  component : Component K ε type

/-- What a file lists, and what is left of it, or why it cannot be read on. -/
structure Listing (K ε : Type) where
  placements : List (Placement K ε)
  rest : Except Failure (Saved K ε)

/-- A listing that ends here. -/
def Listing.stop (f : Failure) : Listing K ε := ⟨[], .error f⟩

section Listings

variable (A : Assets K)

def listPool (type : ComponentType) : Nat → Component K ε type → Saved K ε → Listing K ε
  | 0, _, entries => ⟨[], .ok entries⟩
  | length + 1, c, entries =>
    match StateT.run (loadItem A type c) entries with
    | .error f => .stop f
    | .ok ((none, _), _) => .stop .fault
    | .ok ((some e, c), rest) =>
      let listing := listPool type length c rest
      ⟨⟨type, e, c⟩ :: listing.placements, listing.rest⟩

def listPools : List ComponentType → Saved K ε → Listing K ε
  | [], entries => ⟨[], .ok entries⟩
  | type :: types, entries =>
    match StateT.run (nvp "" : Load K ε Nat) entries with
    | .error f => .stop f
    | .ok (length, rest) =>
      let pool := listPool A type length (Component.new ε type) rest
      match pool.rest with
      | .error f => ⟨pool.placements, .error f⟩
      | .ok rest =>
        let pools := listPools types rest
        ⟨pool.placements ++ pools.placements, pools.rest⟩

/-- The component types that are listed in a file of a version. -/
def listedTypes (version : Int) : Option (List ComponentType) :=
  if version < 2 then some allComponentsV1
  else if version = 3 then some allComponentsV2
  else if version = 4 then some allComponentsV3
  else none

variable [DecidableEq ε]

/-- A registry the placements have been made in, one after the other. -/
def Registry.place (R : Registry K ε) (placements : List (Placement K ε)) : Option (Registry K ε) :=
  placements.foldlM (fun R p => R.emplace p.type p.entity p.component) R

/-- The file breaks off with an exception, and what stands before that describes the registry. -/
def BreaksOff (file : Saved K ε) (R : Registry K ε) : Prop :=
  match StateT.run (nvp "Version" : Load K ε Int) file with
  | .error f => f = .exception ∧ R = .empty
  | .ok (version, rest) =>
    match StateT.run (nvp "Scene Name" : Load K ε String) rest with
    | .error f => f = .exception ∧ R = .empty
    | .ok (_, rest) =>
      match listedTypes version with
      | none => False
      | some types =>
        match StateT.run (nvp "" : Load K ε (Finset ε)) rest with
        | .error f => f = .exception ∧ R = .empty
        | .ok (entities, rest) =>
          (listPools A types rest).rest = .error .exception ∧
            (Registry.assign entities).place (listPools A types rest).placements = some R

end Listings

section Loading

variable [DecidableEq ε] {A : Assets K} {R R' : Registry K ε} {type : ComponentType}

theorem place_cons (p : Placement K ε) (ps : List (Placement K ε)) :
    R.place (p :: ps) = (R.emplace p.type p.entity p.component).bind fun R => R.place ps := rfl

theorem place_append (ps qs : List (Placement K ε)) :
    R.place (ps ++ qs) = (R.place ps).bind fun R => R.place qs := by
  rw [Registry.place, List.foldlM_append]
  rfl

/-- The result of a load that goes by a listing: its components are placed, and where one cannot be
placed the load faults. -/
def Registry.LoadsAs (R : Registry K ε) (listing : Listing K ε) :
    Registry K ε × Except Failure (Saved K ε) → Prop :=
  match R.place listing.placements with
  | some R' => fun result => result = (R', listing.rest)
  | none => fun result => result.2 = .error .fault

theorem loadPool_loadsAs (type : ComponentType) (n : Nat) (c : Component K ε type) (R : Registry K ε)
    (entries : Saved K ε) : R.LoadsAs (listPool A type n c entries) (loadPool A type n c R entries) := by
  induction n generalizing c R entries with
  | zero => exact rfl
  | succ n ih =>
    rw [listPool, loadPool]
    cases StateT.run (loadItem A type c) entries with
    | error f => exact rfl
    | ok found =>
      obtain ⟨⟨e, c'⟩, rest⟩ := found
      cases e with
      | none => exact rfl
      | some e =>
        simp only [Registry.LoadsAs, place_cons]
        cases R.emplace type e c' with
        | none => rfl
        | some R₁ => exact ih c' R₁ rest

theorem loadPools_loadsAs (types : List ComponentType) (R : Registry K ε) (entries : Saved K ε) :
    R.LoadsAs (listPools A types entries) (loadPools A types R entries) := by
  induction types generalizing R entries with
  | nil => exact rfl
  | cons type types ih =>
    rw [listPools, loadPools]
    cases StateT.run (nvp "" : Load K ε Nat) entries with
    | error f => exact rfl
    | ok found =>
      obtain ⟨n, rest⟩ := found
      have hpool := loadPool_loadsAs (A := A) type n (Component.new ε type) R rest
      simp only [Registry.LoadsAs] at hpool ⊢
      cases hplace : R.place (listPool A type n (Component.new ε type) rest).placements with
      | none =>
        -- a component of this pool cannot be placed, and no later one is come to
        rw [hplace] at hpool
        have hnone : ∀ ps, R.place ((listPool A type n (Component.new ε type) rest).placements ++ ps) = none := by
          intro ps
          rw [place_append, hplace, Option.bind_none]
        cases hresult : loadPool A type n (Component.new ε type) R rest with
        | mk R₁ result =>
          rw [hresult] at hpool
          cases hpool
          cases (listPool A type n (Component.new ε type) rest).rest with
          | error f => simp only [hplace]
          | ok rest' => simp only [hnone]
      | some R₁ =>
        rw [hplace] at hpool
        rw [hpool]
        cases (listPool A type n (Component.new ε type) rest).rest with
        | error f => simp only [hplace]
        | ok rest' =>
          simp only [place_append, hplace, Option.bind_some]
          exact ih R₁ rest'

end Loading

/-! ## The load of a scene -/

section Deserialise

variable [DecidableEq ε] (A : Assets K) (s : Scene K ε) (files : Files K ε) (path : String) (binary : Bool)

/-- The same entities with the same components. -/
def Registry.Same (R R' : Registry K ε) : Prop :=
  R.alive = R'.alive ∧ ∀ type e, (R.pool type).find e = (R'.pool type).find e

/-- What is asked of a load: one that cannot be done leaves the registry and the connection as they
were, one that is done leaves the connection there. -/
def Scene.KeepsOrConnects (s : Scene K ε) : Scene K ε × Outcome → Prop
  | (s', .notFound) | (s', .threw) => s'.registry.Same s.registry ∧ s'.onConstruct = s.onConstruct
  | (s', .loaded) => s'.onConstruct = true
  | (_, .faulted) => True

/-- The file is missing or breaks off, and describes the registry so far. -/
def CannotLoad : Option (Saved K ε) → Registry K ε → Prop
  | none, R => R = .empty
  | some file, R => BreaksOff A file R

variable {A s files path binary} {file : Saved K ε} {R : Registry K ε}

theorem onConstruct_load (s : Scene K ε) (file : Saved K ε) : (s.load A file).1.onConstruct = s.onConstruct := by
  simp only [Scene.load]
  repeat' split
  all_goals rfl

theorem loadSnapshot_eq (version : Int) (R : Registry K ε) (entries : Saved K ε) :
    loadSnapshot A version R entries =
      match listedTypes version with
      | some types => loadEntities A types R entries
      | none => (R, .ok entries) := by
  simp only [loadSnapshot, listedTypes]
  split_ifs <;> rfl

/-- How the entities and components of a file are loaded into a cleared registry. -/
theorem loadEntities_exception_iff {types : List ComponentType} {entries : Saved K ε} :
    loadEntities A types .empty entries = (R, .error .exception) ↔
      match StateT.run (nvp "" : Load K ε (Finset ε)) entries with
      | .error f => f = .exception ∧ R = .empty
      | .ok (entities, rest) =>
        (listPools A types rest).rest = .error .exception ∧
          (Registry.assign entities).place (listPools A types rest).placements = some R := by
  cases hentities : StateT.run (nvp "" : Load K ε (Finset ε)) entries with
  | error f =>
    simp only [loadEntities, hentities, Prod.mk.injEq, Except.error.injEq]
    rw [and_comm, eq_comm (a := Registry.empty)]
  | ok found =>
    obtain ⟨entities, rest⟩ := found
    simp only [loadEntities, hentities]
    have hload := loadPools_loadsAs (A := A) types (Registry.assign entities) rest
    rw [Registry.LoadsAs] at hload
    cases hplace : (Registry.assign entities).place (listPools A types rest).placements with
    | none =>
      rw [hplace] at hload
      constructor
      · intro h
        rw [h] at hload
        cases hload
      · rintro ⟨-, h⟩
        cases h
    | some R₁ =>
      rw [hplace] at hload
      rw [hload, Prod.mk.injEq, Option.some.injEq, and_comm]

theorem ofFailure_eq_threw {f : Failure} : Outcome.ofFailure f = .threw ↔ f = .exception := by
  cases f <;> simp [Outcome.ofFailure]

/-- A load throws where the file breaks off, with what it has described so far. -/
theorem load_threw_iff (hempty : s.registry = .empty) :
    ((s.load A file).2 = .threw ∧ (s.load A file).1.registry = R) ↔ BreaksOff A file R := by
  cases hversion : StateT.run (nvp "Version" : Load K ε Int) file with
  | error f =>
    simp only [Scene.load, BreaksOff, hversion, ofFailure_eq_threw, hempty]
    rw [eq_comm (a := Registry.empty)]
  | ok found =>
    obtain ⟨version, rest⟩ := found
    cases hname : StateT.run (nvp "Scene Name" : Load K ε String) rest with
    | error f =>
      simp only [Scene.load, BreaksOff, hversion, hname, ofFailure_eq_threw, hempty]
      rw [eq_comm (a := Registry.empty)]
    | ok found =>
      obtain ⟨sceneName, rest⟩ := found
      simp only [Scene.load, BreaksOff, hversion, hname, loadSnapshot_eq, hempty]
      cases listedTypes version with
      | none => simp
      | some types =>
        refine Iff.trans ?_ loadEntities_exception_iff
        cases hload : loadEntities A types .empty rest with
        | mk registry result =>
          cases result with
          | ok rest => simp [hload]
          | error f => simp [hload, ofFailure_eq_threw, and_comm]

theorem load_ne_notFound (s : Scene K ε) (file : Saved K ε) : (s.load A file).2 ≠ .notFound := by
  have hfailure (f : Failure) : Outcome.ofFailure f ≠ .notFound := by cases f <;> decide
  simp only [Scene.load]
  repeat' split
  all_goals simp [hfailure]

/-- A load that was not done has left the registry the file describes so far. -/
theorem deserialise_fails_iff (A : Assets K) (s : Scene K ε) (files : Files K ε) (path : String) (binary : Bool)
    (R : Registry K ε) :
    ((s.deserialise A files path binary).2 ∈ [Outcome.notFound, .threw] ∧
      (s.deserialise A files path binary).1.registry = R) ↔ CannotLoad A (files (s.filePath path binary)) R := by
  cases hfile : files (s.filePath path binary) with
  | none =>
    simp only [Scene.deserialise, hfile, CannotLoad]
    rw [eq_comm (b := Registry.empty)]
    simp [Scene.clear, Scene.disableOnConstruct]
  | some file =>
    have hthrew : ((s.clear.load A file).2 = .threw ∧ (s.clear.load A file).1.registry = R) ↔ BreaksOff A file R :=
      load_threw_iff rfl
    have hfound : (s.clear.load A file).2 ≠ .notFound := load_ne_notFound s.clear file
    simp only [Scene.deserialise, hfile, CannotLoad, ← hthrew]
    cases hload : s.clear.load A file with
    | mk s' outcome =>
      rw [hload] at hfound
      cases outcome <;> simp_all

/-- The connection is there after a load if and only if it was done. -/
theorem onConstruct_deserialise (A : Assets K) (s : Scene K ε) (files : Files K ε) (path : String)
    (binary : Bool) :
    (s.deserialise A files path binary).1.onConstruct = decide ((s.deserialise A files path binary).2 = .loaded) := by
  cases hfile : files (s.filePath path binary) with
  | none =>
    simp only [Scene.deserialise, hfile]
    rfl
  | some file =>
    have hkeep : (s.clear.load A file).1.onConstruct = false := onConstruct_load s.clear file
    simp only [Scene.deserialise, hfile]
    cases hload : s.clear.load A file with
    | mk s' outcome =>
      rw [hload] at hkeep
      cases outcome with
      | loaded => rfl
      | _ => exact hkeep

/-- Loads meet what is asked of them exactly when the file can be loaded, or else there was no
connection before and the registry was that which the file describes so far. -/
theorem keepsOrConnects_iff :
    s.KeepsOrConnects (s.deserialise A files path binary) ↔
      ∀ R, CannotLoad A (files (s.filePath path binary)) R → R.Same s.registry ∧ s.onConstruct = false := by
  have hconnected := onConstruct_deserialise A s files path binary
  have hfails (R : Registry K ε) := deserialise_fails_iff A s files path binary R
  cases hresult : s.deserialise A files path binary with
  | mk s' outcome =>
    simp only [hresult] at hconnected hfails
    have hnotDone (hmem : outcome ∈ [Outcome.notFound, .threw]) (hloaded : outcome ≠ .loaded) :
        (s'.registry.Same s.registry ∧ s'.onConstruct = s.onConstruct) ↔
          ∀ R, CannotLoad A (files (s.filePath path binary)) R → R.Same s.registry ∧ s.onConstruct = false := by
      have hdisconnected : s'.onConstruct = false := by rw [hconnected, decide_eq_false hloaded]
      constructor
      · rintro ⟨hsame, hsignal⟩ R hR
        have hregistry : s'.registry = R := ((hfails R).mpr hR).2
        exact ⟨hregistry ▸ hsame, hsignal ▸ hdisconnected⟩
      · intro h
        have hR := h s'.registry ((hfails s'.registry).mp ⟨hmem, rfl⟩)
        exact ⟨hR.1, by rw [hdisconnected, hR.2]⟩
    cases outcome with
    | loaded =>
      simp only [Scene.KeepsOrConnects, hconnected, ← hfails]
      simp
    | faulted =>
      simp only [Scene.KeepsOrConnects, ← hfails]
      simp
    | notFound => exact hnotDone (by simp) (by simp)
    | threw => exact hnotDone (by simp) (by simp)

end Deserialise

/-- A missing file: the only entity is gone and so is the connection. -/
theorem keepsOrConnects_missing :
    let A : Assets ℚ := ⟨[], fun _ => false, fun _ => []⟩
    let s : Scene ℚ Nat := ⟨"Scene", 0, .assign {0}, true⟩
    ¬ s.KeepsOrConnects (s.deserialise A (fun _ => none) "" false) := by
  intro A s h
  have hkept : (∅ : Finset Nat) = {0} ∧ false = true := ⟨h.1.1, h.2⟩
  cases hkept.2

end Lumos.Serialisation
