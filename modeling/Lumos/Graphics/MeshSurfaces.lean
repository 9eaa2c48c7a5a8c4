import Mathlib
import Lumos.Graphics.MeshRows
import Lumos.Library.Revolution
import Lumos.Maths.ExactArithmetic

/-!
# Meshes that are drawn as barrels

In exact arithmetic the vertices of a mesh lie on a surface of revolution, and those that are
generated for the same point of it are the ones at the same place.
-/
namespace Lumos.Graphics.MeshFactory

open Maths FloatArithmetic FloatLiterals FloatTrigonometry
open Library.ClosedSurface Library.Barrel Library.Revolution

noncomputable instance : FloatTrigonometry ℝ where
  sinf := Real.sin
  cosf := Real.cos
  pi := Real.pi

theorem turned_real (n i : Nat) : turned ((i : ℝ) / n) = angle n i := by
  have hturned : turned ((i : ℝ) / n) = (i : ℝ) / n * (Real.pi * ((2 : ℕ) : ℝ)) := rfl
  rw [hturned, angle_eq]
  push_cast
  ring

/-! ## What is promised -/

/-- Where a vertex is. -/
noncomputable def Mesh.place (m : Mesh ℝ) (i : Nat) : Option (Vector3 ℝ) := m.vertices[i]?.map Vertex.position

/-- The triangles by the places of their corners. -/
noncomputable def Mesh.surface (m : Mesh ℝ) : List (Triangle (Option (Vector3 ℝ))) :=
  (triangles m.indices).map (Triangle.map m.place)

structure Mesh.Watertight (m : Mesh ℝ) : Prop where
  indices_lt : ∀ i ∈ m.indices, i < m.vertices.length
  closed : Closed m.surface

/-! ## Meshes that are barrels -/

section Barrels

variable {N n : Nat} {m : Mesh ℝ} {ts : List (Triangle Nat)} {us : List (Triangle (Point n))}
  {f : ℝ × ℝ × ℝ → Vector3 ℝ} (p : Profile N)

/-- The triangles of a mesh that is drawn as those of a barrel are. -/
theorem surface_eq (hindices : m.indices = ts.flatMap Triangle.corners)
    (hplaces : ts.map (Triangle.map m.place) = us.map (Triangle.map fun x => some (f (p.place x)))) :
    m.surface = us.map (Triangle.map fun x => some (f (p.place x))) := by
  rw [Mesh.surface, hindices, triangles_flatMap_corners, hplaces]

theorem injOn_some (hn : 0 < n) (hf : f.Injective) :
    (Profile.points N n).InjOn fun x => some (f (p.place x)) :=
  fun _ hx _ hy he => p.injOn_place hn hx hy (hf (Option.some.inj he))

theorem watertight_of_sides (hn : 3 ≤ n) (hN : 2 ≤ N) (hf : f.Injective)
    (hindices : m.indices = ts.flatMap Triangle.corners)
    (hplaces : ts.map (Triangle.map m.place) = us.map (Triangle.map fun x => some (f (p.place x))))
    (hpoints : ∀ t ∈ us, ∀ x ∈ t.corners, x ∈ Profile.points N n)
    (hsides : (sides us).Perm (sides (barrel N n))) : m.Watertight where
  indices_lt := by
    intro i hi
    rw [hindices] at hi
    obtain ⟨t, ht, hi⟩ := List.mem_flatMap.mp hi
    have hmem : t.map m.place ∈ us.map (Triangle.map fun x => some (f (p.place x))) :=
      hplaces ▸ List.mem_map_of_mem ht
    obtain ⟨u, -, hu⟩ := List.mem_map.mp hmem
    have hplace : ∃ v, m.place i = some v := by
      simp only [Triangle.corners, List.mem_cons, List.not_mem_nil, or_false] at hi
      simp only [Triangle.map, Triangle.mk.injEq] at hu
      rcases hi with rfl | rfl | rfl
      · exact ⟨_, hu.1.symm⟩
      · exact ⟨_, hu.2.1.symm⟩
      · exact ⟨_, hu.2.2.symm⟩
    obtain ⟨v, hv⟩ := hplace
    obtain ⟨vertex, hvertex, -⟩ := Option.map_eq_some_iff.mp hv
    exact (List.getElem?_eq_some_iff.mp hvertex).1
  closed := by
    rw [surface_eq p hindices hplaces, closed_map_iff (injOn_some p (by omega) hf) hpoints]
    exact (closed_congr hsides).mpr (closed_barrel hn hN)

end Barrels

/-! ## Bands of a barrel as the loops draw them -/

section Bands

variable {N n : Nat}

/-- A cell as `addPoint` cuts it. -/
def turnedCell (N k : Nat) (c : ZMod n) : List (Triangle (Point n)) := [(first N k c).rotate, (second N k c).rotate]

def turnedBand (N n k : Nat) : List (Triangle (Point n)) := (columns n).flatMap (turnedCell N k)

theorem sides_turnedCell (N k : Nat) (c : ZMod n) : (sides (turnedCell N k c)).Perm (sides (cell N k c)) := by
  rw [turnedCell, cell, sides_cons, sides_cons (first N k c)]
  exact (sides_rotate _).append (sides_rotate _)

theorem sides_turnedBand (N n k : Nat) :
    (sides (turnedBand N n k)).Perm (sides ((columns n).flatMap (cell N k))) := by
  rw [turnedBand, sides_flatMap, sides_flatMap]
  exact List.Perm.flatMap_left _ fun c _ => sides_turnedCell N k c

/-- The rows of a part are those of the barrel from some row on. -/
theorem map_rowTriangles {α : Type} {g : Nat → α} {h : Point n → α} {base k rings : Nat}
    (hplace : ∀ j ≤ rings + 1, ∀ i ≤ n, g (base + j * (n + 1) + i) = h (corner N (k + j) (i : ZMod n))) :
    (rowTriangles base n rings).map (Triangle.map g) =
      ((List.range (rings + 1)).flatMap fun j => turnedBand N n (k + j)).map (Triangle.map h) := by
  rw [rowTriangles, List.map_flatMap, List.map_flatMap]
  apply List.flatMap_congr
  intro j hj
  rw [List.mem_range] at hj
  rw [turnedBand, columns, List.flatMap_map, List.map_flatMap, List.map_flatMap]
  apply List.flatMap_congr
  intro i hi
  rw [List.mem_range] at hi
  simp only [cellTriangles, turnedCell, List.map_cons, List.map_nil, Triangle.map, Triangle.rotate, first, second]
  rw [hplace (j + 1) (by omega) i (by omega), hplace (j + 1) (by omega) (i + 1) (by omega),
    hplace j (by omega) i (by omega), hplace j (by omega) (i + 1) (by omega)]
  push_cast
  rfl

theorem corners_turnedBand {k : Nat} (hk : k < N) {t : Triangle (Point n)} (ht : t ∈ turnedBand N n k)
    {x : Point n} (hx : x ∈ t.corners) : x ∈ Profile.points N n := by
  obtain ⟨c, -, ht⟩ := List.mem_flatMap.mp ht
  simp only [turnedCell, List.mem_cons, List.not_mem_nil, or_false] at ht
  rcases ht with rfl | rfl <;>
    simp only [Triangle.corners, Triangle.rotate, first, second, List.mem_cons, List.not_mem_nil, or_false] at hx
  · rcases hx with rfl | rfl | rfl
    · exact ⟨k + 1, hk, _, rfl⟩
    · exact ⟨k, hk.le, _, rfl⟩
    · exact ⟨k, hk.le, _, rfl⟩
  · rcases hx with rfl | rfl | rfl
    · exact ⟨k + 1, hk, _, rfl⟩
    · exact ⟨k + 1, hk, _, rfl⟩
    · exact ⟨k, hk.le, _, rfl⟩

end Bands

end Lumos.Graphics.MeshFactory
