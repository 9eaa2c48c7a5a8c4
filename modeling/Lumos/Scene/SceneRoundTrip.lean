import Lumos.Scene.RestorableComponents
import Lumos.Scene.SceneArchive

/-!
# Saving a scene and loading it again

A pool is loaded back as the list of its components, each loaded over the one before it. The
scene comes back as it was if and only if every component of every pool does.
-/
namespace Lumos.Serialisation

open Maths Library Library.Archive

variable {K ε : Type} [FloatLiterals K] {A : Assets K}

section Pools

variable {type : ComponentType}

/-- What the components of a pool are loaded as, over an instance. -/
def reloads (A : Assets K) (type : ComponentType) :
    Component K ε type → List (ε × Component K ε type) → Except Failure (List (ε × Component K ε type))
  | _, [] => .ok []
  | c₀, (e, c) :: items => do
    let c' ← Component.reload A type c₀ c
    let items' ← reloads A type c' items
    return (e, c') :: items'

theorem reloads_keys {c₀ : Component K ε type} {items items' : List (ε × Component K ε type)}
    (h : reloads A type c₀ items = .ok items') : items'.map Prod.fst = items.map Prod.fst := by
  induction items generalizing c₀ items' with
  | nil =>
    cases h
    rfl
  | cons item items ih =>
    obtain ⟨e, c⟩ := item
    obtain ⟨c', -, h⟩ := bind_eq_ok.mp h
    obtain ⟨rest', hrest, h⟩ := bind_eq_ok.mp h
    cases h
    rw [List.map_cons, List.map_cons, ih hrest]

/-- A pool is loaded as it was when each component is, over the one before it. -/
theorem reloads_eq_self_iff {c₀ : Component K ε type} {items : List (ε × Component K ε type)} :
    reloads A type c₀ items = .ok items ↔
      (c₀ :: items.map Prod.snd).IsChain fun c₀ c => Component.reload A type c₀ c = .ok c := by
  induction items generalizing c₀ with
  | nil => simp [reloads]
  | cons item items ih =>
    obtain ⟨e, c⟩ := item
    rw [List.map_cons, List.isChain_cons_cons, ← ih, reloads]
    constructor
    · intro h
      obtain ⟨c', hreload, h⟩ := bind_eq_ok.mp h
      obtain ⟨rest', hrest, h⟩ := bind_eq_ok.mp h
      cases h
      exact ⟨hreload, hrest⟩
    · rintro ⟨hreload, hrest⟩
      exact bind_eq_ok.mpr ⟨c, hreload, bind_eq_ok.mpr ⟨items, hrest, rfl⟩⟩

theorem isSome_saveItems {items : List (ε × Component K ε type)} :
    (saveItems A items).isSome ↔ ∀ c ∈ items.map Prod.snd, (Component.save A type c).isSome := by
  induction items with
  | nil => simp [saveItems]
  | cons item items ih =>
    obtain ⟨e, c⟩ := item
    rw [List.map_cons, List.forall_mem_cons, ← ih, saveItems]
    cases Component.save A type c with
    | none => simp
    | some saved => cases saveItems A items <;> simp

theorem isSome_savePools {R : Registry K ε} {types : List ComponentType} :
    (savePools A R types).isSome ↔ ∀ type ∈ types, (saveItems A (R.pool type).packed).isSome := by
  induction types with
  | nil => simp [savePools]
  | cons type types ih =>
    rw [List.forall_mem_cons, ← ih, savePools]
    cases saveItems A (R.pool type).packed with
    | none => simp
    | some items => cases savePools A R types <;> simp

end Pools

/-! ## Loading what has been saved -/

section Loading

variable [DecidableEq ε] {type : ComponentType} {R R' R'' : Registry K ε} {rest : Saved K ε}

/-- These components have been put into a pool, and transforms where they are depended on. -/
structure PoolLoaded (type : ComponentType) (items : List (ε × Component K ε type)) (R R' : Registry K ε) :
    Prop where
  alive : R'.alive = R.alive
  packed : (R'.pool type).packed = (R.pool type).packed ++ items
  other : ∀ t, t ≠ type → t ≠ .transform → R'.pool t = R.pool t
  transforms : (R.pool .transform).packed ⊆ (R'.pool .transform).packed

omit [FloatLiterals K] [DecidableEq ε] in
theorem PoolLoaded.refl (type : ComponentType) (R : Registry K ε) : PoolLoaded type [] R R :=
  ⟨rfl, (List.append_nil _).symm, fun _ _ _ => rfl, fun _ h => h⟩

omit [FloatLiterals K] [DecidableEq ε] in
theorem PoolLoaded.trans {items items' : List (ε × Component K ε type)} (h : PoolLoaded type items R R')
    (h' : PoolLoaded type items' R' R'') : PoolLoaded type (items ++ items') R R'' where
  alive := h'.alive.trans h.alive
  packed := by rw [h'.packed, h.packed, List.append_assoc]
  other := fun t ht htransform => (h'.other t ht htransform).trans (h.other t ht htransform)
  transforms := fun _ hx => h'.transforms (h.transforms hx)

omit [FloatLiterals K] in
theorem poolLoaded_push {e : ε} {c : Component K ε type} (halive : e ∈ R.alive) (h : e ∉ (R.pool type).keys) :
    PoolLoaded type [(e, c)] R (R.push type e c h) where
  alive := Finset.insert_eq_of_mem halive
  packed := R.packed_push h
  other := fun t ht _ => R.pool_push_of_ne h ht
  transforms := by
    by_cases htype : ComponentType.transform = type
    · subst htype
      rw [Registry.packed_push]
      exact List.subset_append_left _ _
    · rw [Registry.pool_push_of_ne h htype]
      exact fun _ hx => hx

/-- An entity that is alive gets a component it does not have. -/
theorem emplace_spec {e : ε} {c : Component K ε type} (halive : e ∈ R.alive) (h : e ∉ (R.pool type).keys) :
    ∃ R', R.emplace type e c = some R' ∧ PoolLoaded type [(e, c)] R R' := by
  have hpush := poolLoaded_push (c := c) halive h
  rw [Registry.emplace, dif_neg h]
  by_cases hdepends : Registry.dependsOnTransform type
  · have htype : type ≠ .transform := by
      rintro rfl
      cases hdepends
    refine ⟨(R.push type e c h).getOrEmplaceTransform e, by simp [hdepends], ?_⟩
    rw [Registry.getOrEmplaceTransform]
    split
    · exact hpush
    · rename_i hnone
      have htransform := poolLoaded_push (c := Transform.new) (hpush.alive ▸ halive) hnone
      exact {
        alive := htransform.alive.trans hpush.alive
        packed := by rw [Registry.pool_push_of_ne hnone htype, hpush.packed]
        other := fun t ht ht' => (htransform.other t ht' ht').trans (hpush.other t ht ht')
        transforms := fun _ hx => htransform.transforms (hpush.transforms hx) }
  · exact ⟨R.push type e c h, by simp [hdepends], hpush⟩

omit [DecidableEq ε] in
theorem run_loadItem (e : ε) (c₀ : Component K ε type) {c : Component K ε type} {saved : Saved K ε}
    (h : Component.save A type c = some saved) (hrest : Unnamed rest) :
    StateT.run (loadItem A type c₀) (entry "" (some e) :: (saved ++ rest)) =
      (Component.reload A type c₀ c).map fun c' => ((some e, c'), rest) := by
  rw [loadItem, run_nvp_bind, StateT.run_bind, Component.run_load h hrest]
  cases Component.reload A type c₀ c <;> rfl

omit [DecidableEq ε] in
theorem unnamed_saveItems {items : List (ε × Component K ε type)} {saved : Saved K ε}
    (h : saveItems A items = some saved) (hrest : Unnamed rest) : Unnamed (saved ++ rest) := by
  cases items with
  | nil =>
    cases h
    exact hrest
  | cons item items =>
    obtain ⟨saved₁, -, h⟩ := Option.bind_eq_some_iff.mp h
    obtain ⟨saved₂, -, h⟩ := Option.bind_eq_some_iff.mp h
    cases h
    exact unnamed_cons _ _

/-- A pool that has been saved is loaded as `reloads` has it, and stops where that does. -/
theorem loadPool_saved (c₀ : Component K ε type) {items : List (ε × Component K ε type)} {saved : Saved K ε}
    (hsave : saveItems A items = some saved) (hnodup : (items.map Prod.fst).Nodup)
    (halive : ∀ e ∈ items.map Prod.fst, e ∈ R.alive)
    (hfresh : ∀ e ∈ items.map Prod.fst, e ∉ (R.pool type).keys) (hrest : Unnamed rest) :
    ∃ R', loadPool A type items.length c₀ R (saved ++ rest) =
        (R', (reloads A type c₀ items).map fun _ => rest) ∧
      ∀ items', reloads A type c₀ items = .ok items' → PoolLoaded type items' R R' := by
  induction items generalizing c₀ R saved with
  | nil =>
    cases hsave
    refine ⟨R, rfl, ?_⟩
    intro items' h
    cases h
    exact .refl type R
  | cons item items ih =>
    obtain ⟨e, c⟩ := item
    obtain ⟨saved₁, hsaved₁, h⟩ := Option.bind_eq_some_iff.mp hsave
    obtain ⟨saved₂, hsaved₂, h⟩ := Option.bind_eq_some_iff.mp h
    cases h
    rw [List.map_cons, List.forall_mem_cons] at halive hfresh
    rw [List.map_cons, List.nodup_cons] at hnodup
    have hitem := run_loadItem e c₀ hsaved₁ (unnamed_saveItems hsaved₂ hrest)
    rw [List.cons_append, List.cons_append, List.append_assoc, List.length_cons, loadPool, hitem, reloads]
    cases hreload : Component.reload A type c₀ c with
    | error f =>
      refine ⟨R, rfl, ?_⟩
      intro items' h
      cases h
    | ok c' =>
      obtain ⟨R₁, hemplace, hloaded⟩ := emplace_spec (c := c') halive.1 hfresh.1
      have hfresh₁ : ∀ x ∈ items.map Prod.fst, x ∉ (R₁.pool type).keys := by
        intro x hx hkey
        rw [SparseSet.keys, hloaded.packed, List.map_append, List.mem_append] at hkey
        cases hkey with
        | inl hkey => exact hfresh.2 x hx hkey
        | inr hkey =>
          rw [List.map_singleton, List.mem_singleton] at hkey
          exact hnodup.1 (hkey ▸ hx)
      obtain ⟨R₂, hload, hall⟩ := ih c' hsaved₂ hnodup.2 (hloaded.alive.symm ▸ halive.2) hfresh₁
      refine ⟨R₂, ?_, ?_⟩
      · simp only [Except.map, hemplace, hload]
        cases hrest' : reloads A type c' items <;> simp [hrest', bind, Except.bind, pure, Except.pure]
      · intro items' h
        obtain ⟨_, hc, h⟩ := bind_eq_ok.mp h
        cases hc
        obtain ⟨rest', hrest', h⟩ := bind_eq_ok.mp h
        cases h
        exact hloaded.trans (hall rest' hrest')

omit [DecidableEq ε] in
theorem unnamed_savePools {types : List ComponentType} {saved : Saved K ε}
    (h : savePools A R types = some saved) (hrest : Unnamed rest) : Unnamed (saved ++ rest) := by
  cases types with
  | nil =>
    cases h
    exact hrest
  | cons type types =>
    obtain ⟨items, -, h⟩ := Option.bind_eq_some_iff.mp h
    obtain ⟨pools, -, h⟩ := Option.bind_eq_some_iff.mp h
    cases h
    exact unnamed_cons _ _

/-- Components are added to a registry. -/
structure Registry.Grows (R R' : Registry K ε) : Prop where
  alive : R'.alive = R.alive
  packed : ∀ type, (R.pool type).packed ⊆ (R'.pool type).packed

omit [FloatLiterals K] [DecidableEq ε] in
theorem PoolLoaded.grows {items : List (ε × Component K ε type)} (h : PoolLoaded type items R R') :
    R.Grows R' where
  alive := h.alive
  packed := by
    intro t
    by_cases ht : t = type
    · subst ht
      rw [h.packed]
      exact List.subset_append_left _ _
    · by_cases htransform : t = .transform
      · subst htransform
        exact h.transforms
      · rw [h.other t ht htransform]
        exact fun _ hx => hx

/-- Every pool of the saved registry is loaded, or one of them stops the load. Transforms, which
other components bring with them, have to come first. -/
theorem loadPools_saved {S : Registry K ε} {types : List ComponentType} {saved : Saved K ε}
    (hsave : savePools A S types = some saved) (hnodup : types.Nodup)
    (htransform : ComponentType.transform ∉ types.tail)
    (hempty : ∀ type ∈ types, (R.pool type).packed = []) (halive : R.alive = S.alive) (hrest : Unnamed rest) :
    (∃ R', loadPools A types R (saved ++ rest) = (R', .ok rest) ∧ R.Grows R' ∧
      ∀ type ∈ types, ∃ items, reloads A type (Component.new ε type) (S.pool type).packed = .ok items ∧
        items ⊆ (R'.pool type).packed) ∨
    ∃ type ∈ types, ∃ f, reloads A type (Component.new ε type) (S.pool type).packed = .error f ∧
      (loadPools A types R (saved ++ rest)).2 = .error f := by
  induction types generalizing R saved with
  | nil =>
    cases hsave
    exact .inl ⟨R, rfl, ⟨rfl, fun _ _ h => h⟩, by simp⟩
  | cons type types ih =>
    obtain ⟨saved₁, hsaved₁, h⟩ := Option.bind_eq_some_iff.mp hsave
    obtain ⟨saved₂, hsaved₂, h⟩ := Option.bind_eq_some_iff.mp h
    cases h
    rw [List.nodup_cons] at hnodup
    rw [List.forall_mem_cons] at hempty
    have hpool := loadPool_saved (R := R) (Component.new ε type) hsaved₁ (S.pool type).nodup
      (halive ▸ S.owned type) (by simp [SparseSet.keys, hempty.1]) (unnamed_savePools hsaved₂ hrest)
    obtain ⟨R₁, hload, hloaded⟩ := hpool
    have hlength : StateT.run (nvp "" : Load K ε Nat)
        (entry "" (S.pool type).packed.length :: saved₁ ++ saved₂ ++ rest) =
          .ok ((S.pool type).packed.length, saved₁ ++ (saved₂ ++ rest)) := by
      rw [List.cons_append, List.cons_append, List.append_assoc, run_nvp]
    rw [loadPools]
    simp only [hlength, hload]
    cases hreloads : reloads A type (Component.new ε type) (S.pool type).packed with
    | error f => exact .inr ⟨type, List.mem_cons_self, f, hreloads, rfl⟩
    | ok items =>
      have hitems := hloaded items hreloads
      have hempty₁ : ∀ t ∈ types, (R₁.pool t).packed = [] := by
        intro t ht
        have htype : t ≠ type := fun h => hnodup.1 (h ▸ ht)
        have ht' : t ≠ .transform := fun h => htransform (h ▸ ht)
        rw [hitems.other t htype ht', hempty.2 t ht]
      have htail : ComponentType.transform ∉ types.tail := fun h => htransform (List.mem_of_mem_tail h)
      cases ih hsaved₂ hnodup.2 htail hempty₁ (hitems.alive.trans halive) with
      | inl h =>
        obtain ⟨R₂, hload₂, hgrows, hall⟩ := h
        left
        refine ⟨R₂, hload₂, ⟨hgrows.alive.trans hitems.alive, ?_⟩, ?_⟩
        · exact fun t _ hx => hgrows.packed t (hitems.grows.packed t hx)
        · rw [List.forall_mem_cons]
          refine ⟨⟨items, hreloads, ?_⟩, hall⟩
          intro x hx
          exact hgrows.packed type (by rw [hitems.packed]; exact List.mem_append_right _ hx)
      | inr h =>
        obtain ⟨t, ht, f, hfail, hresult⟩ := h
        exact .inr ⟨t, List.mem_cons_of_mem type ht, f, hfail, hresult⟩

end Loading

/-! ## Scenes -/

section Scenes

/-- Every component comes back as it was, and no sprite without a texture stands right behind one
that has a texture. -/
def Registry.Restorable (A : Assets K) (R : Registry K ε) : Prop :=
  ∀ type, (∀ c ∈ R.components type, Component.Restorable A type c) ∧
    (R.components type).IsChain (Component.Follows type)

/-- A pool can be saved and is loaded as it was. -/
theorem saved_and_reloads_iff {R : Registry K ε} {type : ComponentType} :
    ((saveItems A (R.pool type).packed).isSome ∧
      reloads A type (Component.new ε type) (R.pool type).packed = .ok (R.pool type).packed) ↔
      (∀ c ∈ R.components type, Component.Restorable A type c) ∧
        (R.components type).IsChain (Component.Follows type) := by
  have hchain := isChain_cons_iff (R := Component.Restored A type) (a := Component.new ε type)
    (l := R.components type) (Q := fun _ => True) (fun _ _ _ => Iff.rfl) (fun _ _ => trivial) trivial
  rw [isSome_saveItems, reloads_eq_self_iff, ← isChain_restored_iff, hchain]
  rfl

variable [DecidableEq ε]

/-- The name, the entities and the components of a scene are those of another. -/
structure Scene.RestoredAs (s s' : Scene K ε) : Prop where
  sceneName : s'.sceneName = s.sceneName
  alive : s'.registry.alive = s.registry.alive
  components : ∀ type e c, (s.registry.pool type).find e = some c → (s'.registry.pool type).find e = some c

/-- `Serialise` saves the scene, and `Deserialise` restores it in another one. -/
def Scene.RoundTrips (A : Assets K) (s fresh : Scene K ε) (files : Files K ε) (path : String) (binary : Bool) :
    Prop :=
  ∃ s' files', s.serialise A files path binary = some (s', files') ∧
    (fresh.deserialise A files' path binary).2 = .loaded ∧
    s.RestoredAs (fresh.deserialise A files' path binary).1

variable {s fresh : Scene K ε} {files : Files K ε} {path : String} {binary : Bool}

theorem load_saved (s : Scene K ε) (sceneName : String) (entities : Finset ε) (pools : Saved K ε) :
    s.load A (entry "Version" (4 : Int) :: entry "Scene Name" sceneName :: entry "" entities :: pools) =
      match loadPools A allComponentsV3 (.assign entities) pools with
      | (registry, .error f) => ({ s with sceneName, sceneSerialisationVersion := 4, registry }, .ofFailure f)
      | (registry, .ok _) => ({ s with sceneName, sceneSerialisationVersion := 4, registry }, .loaded) := by
  simp only [Scene.load, run_nvp]
  rfl

/-- A scene that is loaded from the file another one has been saved in. -/
theorem deserialise_serialise {s' : Scene K ε} {files' : Files K ε}
    (hname : removeSpaces fresh.sceneName = removeSpaces s.sceneName)
    (h : s.serialise A files path binary = some (s', files')) :
    ∃ pools, savePools A s.registry allComponentsV3 = some pools ∧
      fresh.deserialise A files' path binary =
        match loadPools A allComponentsV3 (.assign s.registry.alive) pools with
        | (registry, .error f) => (⟨removeSpaces s.sceneName, 4, registry, false⟩, .ofFailure f)
        | (registry, .ok _) => (⟨removeSpaces s.sceneName, 4, registry, true⟩, .loaded) := by
  obtain ⟨file, hfile, h⟩ := Option.bind_eq_some_iff.mp h
  obtain ⟨pools, hpools, hsaved⟩ := Option.bind_eq_some_iff.mp hfile
  cases h
  cases hsaved
  refine ⟨pools, hpools, ?_⟩
  have hpath : fresh.filePath path binary = s.filePath path binary := by
    rw [Scene.filePath, hname, Scene.filePath]
  rw [Scene.deserialise, hpath, Function.update_self]
  simp only [load_saved]
  cases loadPools A allComponentsV3 (.assign s.registry.alive) pools with
  | mk registry result =>
    cases result with
    | error f => cases f <;> rfl
    | ok rest => rfl

/-- What is loaded from a snapshot of a registry. -/
theorem loadPools_allComponentsV3 {S : Registry K ε} {pools : Saved K ε}
    (hsave : savePools A S allComponentsV3 = some pools) :
    (∃ R, loadPools A allComponentsV3 (.assign S.alive) pools = (R, .ok []) ∧
      (Registry.assign S.alive : Registry K ε).Grows R ∧
      ∀ type, ∃ items, reloads A type (Component.new ε type) (S.pool type).packed = .ok items ∧
        items ⊆ (R.pool type).packed) ∨
    ∃ type f, reloads A type (Component.new ε type) (S.pool type).packed = .error f ∧
      (loadPools A allComponentsV3 (.assign S.alive) pools).2 = .error f := by
  have hload := loadPools_saved (R := .assign S.alive) hsave nodup_allComponentsV3 (by decide)
    (fun _ _ => rfl) rfl unnamed_nil
  rw [List.append_nil] at hload
  cases hload with
  | inl h =>
    obtain ⟨R, hR, hgrows, hall⟩ := h
    exact .inl ⟨R, hR, hgrows, fun type => hall type (mem_allComponentsV3 type)⟩
  | inr h =>
    obtain ⟨type, -, f, hfail, hresult⟩ := h
    exact .inr ⟨type, f, hfail, hresult⟩

/-- A scene that comes back as it was has a name without spaces and components that do. -/
theorem Scene.RoundTrips.restorable (hname : removeSpaces fresh.sceneName = removeSpaces s.sceneName)
    (h : s.RoundTrips A fresh files path binary) :
    removeSpaces s.sceneName = s.sceneName ∧ s.registry.Restorable A := by
  obtain ⟨s', files', hserialise, hloaded, hrestored⟩ := h
  obtain ⟨pools, hpools, hdeserialise⟩ := deserialise_serialise hname hserialise
  rw [hdeserialise] at hloaded hrestored
  cases loadPools_allComponentsV3 hpools with
  | inl h =>
    obtain ⟨R, hR, hgrows, hall⟩ := h
    rw [hR] at hrestored
    refine ⟨hrestored.sceneName, ?_⟩
    intro type
    rw [← saved_and_reloads_iff]
    have hsaved : (savePools A s.registry allComponentsV3).isSome := by rw [hpools]; rfl
    refine ⟨isSome_savePools.mp hsaved type (mem_allComponentsV3 type), ?_⟩
    obtain ⟨items, hitems, hsubset⟩ := hall type
    have hkept : (s.registry.pool type).packed ⊆ (R.pool type).packed := by
      rintro ⟨e, c⟩ hmem
      exact SparseSet.find_eq_some.mp (hrestored.components type e c (SparseSet.find_eq_some.mpr hmem))
    rw [hitems, SparseSet.eq_of_keys_eq (reloads_keys hitems) hsubset hkept]
  | inr h =>
    obtain ⟨type, f, -, hfail⟩ := h
    cases hresult : loadPools A allComponentsV3 (.assign s.registry.alive) pools with
    | mk R result =>
      rw [hresult] at hfail hloaded
      cases hfail
      cases f <;> cases hloaded

theorem roundTrips_of_restorable (hname : removeSpaces fresh.sceneName = removeSpaces s.sceneName)
    (hspaces : removeSpaces s.sceneName = s.sceneName) (hrestorable : s.registry.Restorable A) :
    s.RoundTrips A fresh files path binary := by
  have hall (type : ComponentType) := saved_and_reloads_iff.mpr (hrestorable type)
  have hsaved : (savePools A s.registry allComponentsV3).isSome :=
    isSome_savePools.mpr fun type _ => (hall type).1
  have hserialise : (s.serialise A files path binary).isSome := by
    obtain ⟨pools, hpools⟩ := Option.isSome_iff_exists.mp hsaved
    simp [Scene.serialise, Scene.save, hpools]
  obtain ⟨⟨s', files'⟩, hserialise⟩ := Option.isSome_iff_exists.mp hserialise
  obtain ⟨pools, hpools, hdeserialise⟩ := deserialise_serialise hname hserialise
  refine ⟨s', files', hserialise, ?_⟩
  rw [hdeserialise]
  cases loadPools_allComponentsV3 hpools with
  | inl h =>
    obtain ⟨R, hR, hgrows, hitems⟩ := h
    rw [hR]
    refine ⟨rfl, hspaces, hgrows.alive, ?_⟩
    intro type e c hfind
    obtain ⟨items, hreloads, hsubset⟩ := hitems type
    cases hreloads.symm.trans (hall type).2
    exact SparseSet.find_eq_some.mpr (hsubset (SparseSet.find_eq_some.mp hfind))
  | inr h =>
    obtain ⟨type, f, hfail, -⟩ := h
    cases hfail.symm.trans (hall type).2

/-- Scenes come back as they were exactly when their names have no spaces and their components come
back as they were. -/
theorem roundTrips_iff (hname : removeSpaces fresh.sceneName = removeSpaces s.sceneName) :
    s.RoundTrips A fresh files path binary ↔
      removeSpaces s.sceneName = s.sceneName ∧ s.registry.Restorable A := by
  constructor
  · intro h
    exact h.restorable hname
  · rintro ⟨hspaces, hrestorable⟩
    exact roundTrips_of_restorable hname hspaces hrestorable

end Scenes

/-- No virtual paths, and no files. -/
def noAssets : Assets ℚ := ⟨[], fun _ => false, fun _ => []⟩

/-- A scene of one entity with a camera. -/
def cameraScene (c : Camera ℚ) : Scene ℚ Nat where
  sceneName := "NewScene"
  sceneSerialisationVersion := 0
  registry := (Registry.assign {0}).push .camera 0 c (by decide)
  onConstruct := true

theorem components_cameraScene (c : Camera ℚ) (type : ComponentType) :
    (cameraScene c).registry.components type = if h : type = .camera then [h ▸ c] else [] := by
  by_cases h : type = .camera
  · subst h
    rfl
  · rw [Registry.components, cameraScene, Registry.pool_push_of_ne _ h, dif_neg h]
    rfl

/-- A perspective camera comes back, and with it the name. -/
theorem roundTrips_perspective :
    (cameraScene Camera.new).RoundTrips noAssets ⟨"New Scene", 0, .empty, true⟩ (fun _ => none) "" false := by
  have hrestorable : (cameraScene Camera.new).registry.Restorable noAssets := by
    intro type
    rw [components_cameraScene]
    split
    · rename_i h
      subst h
      exact ⟨by simp [Component.Restorable, Camera.Restorable, Camera.new], .singleton _⟩
    · exact ⟨by simp, .nil⟩
  exact (roundTrips_iff (by decide)).mpr ⟨by decide, hrestorable⟩

/-- An orthographic camera comes back as a perspective one. -/
theorem roundTrips_orthographic :
    ¬ (cameraScene { Camera.new with orthographic := true }).RoundTrips noAssets
      ⟨"New Scene", 0, .empty, true⟩ (fun _ => none) "" false := by
  intro h
  have hcamera := (h.restorable (by decide)).2 .camera
  rw [components_cameraScene] at hcamera
  cases hcamera.1 _ List.mem_cons_self

end Lumos.Serialisation
