import Mathlib

/-! # Vector types of `HOOMDMath.h`

`Scalar3` and `Scalar4` over any scalar type with the component-wise operators, `dot` and
`cross`: `Scalar3` is an additive group, `dot` and `cross` are additive in each argument, and
along a line `a + t v` `dot` has the derivatives the potentials' gradients are built from. -/
namespace HoomdMath

@[ext]
structure Scalar2 (Scalar : Type) where
  x : Scalar
  y : Scalar
  deriving DecidableEq, Repr

@[ext]
structure Scalar3 (Scalar : Type) where
  x : Scalar
  y : Scalar
  z : Scalar
  deriving DecidableEq, Repr

@[ext]
structure Scalar4 (Scalar : Type) where
  x : Scalar
  y : Scalar
  z : Scalar
  w : Scalar
  deriving DecidableEq, Repr

variable {Scalar : Type}

def makeScalar3 (x y z : Scalar) : Scalar3 Scalar := ⟨x, y, z⟩

/-- The first three components, `make_scalar3(v.x, v.y, v.z)`. -/
def Scalar4.xyz (v : Scalar4 Scalar) : Scalar3 Scalar := makeScalar3 v.x v.y v.z

namespace Scalar3

def toProd (a : Scalar3 Scalar) : Scalar × Scalar × Scalar := (a.x, a.y, a.z)

theorem toProd_injective : Function.Injective (@toProd Scalar) := by
  rintro ⟨x, y, z⟩ ⟨x', y', z'⟩ h
  simp only [toProd, Prod.mk.injEq] at h
  obtain ⟨rfl, rfl, rfl⟩ := h
  rfl

section Group

variable [AddCommGroup Scalar]

instance : Zero (Scalar3 Scalar) := ⟨⟨0, 0, 0⟩⟩
instance : Add (Scalar3 Scalar) := ⟨fun a b => ⟨a.x + b.x, a.y + b.y, a.z + b.z⟩⟩
instance : Neg (Scalar3 Scalar) := ⟨fun a => ⟨-a.x, -a.y, -a.z⟩⟩
instance : Sub (Scalar3 Scalar) := ⟨fun a b => ⟨a.x - b.x, a.y - b.y, a.z - b.z⟩⟩
instance : SMul ℕ (Scalar3 Scalar) := ⟨fun n a => ⟨n • a.x, n • a.y, n • a.z⟩⟩
instance : SMul ℤ (Scalar3 Scalar) := ⟨fun n a => ⟨n • a.x, n • a.y, n • a.z⟩⟩

instance : AddCommGroup (Scalar3 Scalar) :=
  toProd_injective.addCommGroup _ rfl (fun _ _ => rfl) (fun _ => rfl) (fun _ _ => rfl)
    (fun _ _ => rfl) (fun _ _ => rfl)

@[simp] theorem zero_x : (0 : Scalar3 Scalar).x = 0 := rfl
@[simp] theorem zero_y : (0 : Scalar3 Scalar).y = 0 := rfl
@[simp] theorem zero_z : (0 : Scalar3 Scalar).z = 0 := rfl
@[simp] theorem add_x (a b : Scalar3 Scalar) : (a + b).x = a.x + b.x := rfl
@[simp] theorem add_y (a b : Scalar3 Scalar) : (a + b).y = a.y + b.y := rfl
@[simp] theorem add_z (a b : Scalar3 Scalar) : (a + b).z = a.z + b.z := rfl
@[simp] theorem sub_x (a b : Scalar3 Scalar) : (a - b).x = a.x - b.x := rfl
@[simp] theorem sub_y (a b : Scalar3 Scalar) : (a - b).y = a.y - b.y := rfl
@[simp] theorem sub_z (a b : Scalar3 Scalar) : (a - b).z = a.z - b.z := rfl
@[simp] theorem neg_x (a : Scalar3 Scalar) : (-a).x = -a.x := rfl
@[simp] theorem neg_y (a : Scalar3 Scalar) : (-a).y = -a.y := rfl
@[simp] theorem neg_z (a : Scalar3 Scalar) : (-a).z = -a.z := rfl

end Group

section Ring

variable [Ring Scalar]

/-- `Scalar * Scalar3`. -/
instance : SMul Scalar (Scalar3 Scalar) := ⟨fun c a => ⟨c * a.x, c * a.y, c * a.z⟩⟩

@[simp] theorem smul_x (c : Scalar) (a : Scalar3 Scalar) : (c • a).x = c * a.x := rfl
@[simp] theorem smul_y (c : Scalar) (a : Scalar3 Scalar) : (c • a).y = c * a.y := rfl
@[simp] theorem smul_z (c : Scalar) (a : Scalar3 Scalar) : (c • a).z = c * a.z := rfl

@[simp] theorem zero_smul (a : Scalar3 Scalar) : (0 : Scalar) • a = 0 := by
  ext <;> exact zero_mul _

@[simp] theorem smul_zero (c : Scalar) : c • (0 : Scalar3 Scalar) = 0 := by
  ext <;> exact mul_zero _

end Ring

end Scalar3

def dot [Add Scalar] [Mul Scalar] (a b : Scalar3 Scalar) : Scalar :=
  a.x * b.x + a.y * b.y + a.z * b.z

/-- The cross product `a × b`. -/
def cross [Sub Scalar] [Mul Scalar] (a b : Scalar3 Scalar) : Scalar3 Scalar :=
  ⟨a.y * b.z - a.z * b.y, a.z * b.x - a.x * b.z, a.x * b.y - a.y * b.x⟩

@[simp] theorem xyz_x (v : Scalar4 Scalar) : v.xyz.x = v.x := rfl
@[simp] theorem xyz_y (v : Scalar4 Scalar) : v.xyz.y = v.y := rfl
@[simp] theorem xyz_z (v : Scalar4 Scalar) : v.xyz.z = v.z := rfl

/-! ### Dot and cross products -/

section Dot

variable [CommRing Scalar]

theorem dot_add_left (a b w : Scalar3 Scalar) : dot (a + b) w = dot a w + dot b w := by
  simp only [dot, Scalar3.add_x, Scalar3.add_y, Scalar3.add_z]
  ring

theorem dot_add_right (w a b : Scalar3 Scalar) : dot w (a + b) = dot w a + dot w b := by
  simp only [dot, Scalar3.add_x, Scalar3.add_y, Scalar3.add_z]
  ring

theorem dot_sub_left (a b w : Scalar3 Scalar) : dot (a - b) w = dot a w - dot b w := by
  simp only [dot, Scalar3.sub_x, Scalar3.sub_y, Scalar3.sub_z]
  ring

theorem dot_sub_right (w a b : Scalar3 Scalar) : dot w (a - b) = dot w a - dot w b := by
  simp only [dot, Scalar3.sub_x, Scalar3.sub_y, Scalar3.sub_z]
  ring

theorem dot_smul_left (c : Scalar) (a b : Scalar3 Scalar) : dot (c • a) b = c * dot a b := by
  simp only [dot, Scalar3.smul_x, Scalar3.smul_y, Scalar3.smul_z]
  ring

theorem dot_sum_left {ι : Type} (s : Finset ι) (f : ι → Scalar3 Scalar) (w : Scalar3 Scalar) :
    dot (∑ i in s, f i) w = ∑ i in s, dot (f i) w :=
  map_sum (AddMonoidHom.mk' (dot · w) fun a b => dot_add_left a b w) f s

theorem dot_add_smul_left (a v w : Scalar3 Scalar) (t : Scalar) :
    dot (a + t • v) w = dot a w + t * dot v w := by
  rw [dot_add_left, dot_smul_left]

theorem dot_add_smul_right (w a v : Scalar3 Scalar) (t : Scalar) :
    dot w (a + t • v) = dot w a + t * dot w v := by
  simp only [dot, Scalar3.add_x, Scalar3.add_y, Scalar3.add_z, Scalar3.smul_x, Scalar3.smul_y,
    Scalar3.smul_z]
  ring

theorem cross_add_left (a b c : Scalar3 Scalar) : cross (a + b) c = cross a c + cross b c := by
  ext <;> simp only [cross, Scalar3.add_x, Scalar3.add_y, Scalar3.add_z] <;> ring

theorem cross_add_right (a b c : Scalar3 Scalar) : cross a (b + c) = cross a b + cross a c := by
  ext <;> simp only [cross, Scalar3.add_x, Scalar3.add_y, Scalar3.add_z] <;> ring

theorem cross_zero_left (a : Scalar3 Scalar) : cross 0 a = 0 := by
  ext <;> simp only [cross, Scalar3.zero_x, Scalar3.zero_y, Scalar3.zero_z, zero_mul, sub_self]

theorem cross_smul_self (c : Scalar) (a : Scalar3 Scalar) : cross a (c • a) = 0 := by
  ext <;> simp only [cross, Scalar3.smul_x, Scalar3.smul_y, Scalar3.smul_z, Scalar3.zero_x,
    Scalar3.zero_y, Scalar3.zero_z] <;> ring

end Dot

/-! ### Dot products along a line -/

theorem dot_self_nonneg (a : Scalar3 ℝ) : 0 ≤ dot a a :=
  add_nonneg (add_nonneg (mul_self_nonneg _) (mul_self_nonneg _)) (mul_self_nonneg _)

theorem hasDerivAt_dot_left (a v w : Scalar3 ℝ) :
    HasDerivAt (fun t : ℝ => dot (a + t • v) w) (dot v w) 0 := by
  simp only [dot_add_smul_left]
  exact (hasDerivAt_mul_const (dot v w)).const_add (dot a w)

theorem hasDerivAt_dot_right (w a v : Scalar3 ℝ) :
    HasDerivAt (fun t : ℝ => dot w (a + t • v)) (dot w v) 0 := by
  simp only [dot_add_smul_right]
  exact (hasDerivAt_mul_const (dot w v)).const_add (dot w a)

theorem hasDerivAt_dot_self (a v : Scalar3 ℝ) :
    HasDerivAt (fun t : ℝ => dot (a + t • v) (a + t • v)) (2 * dot a v) 0 := by
  have h : ∀ t : ℝ,
      dot (a + t • v) (a + t • v) = dot a a + t * (2 * dot a v + t * dot v v) := by
    intro t
    simp only [dot, Scalar3.add_x, Scalar3.add_y, Scalar3.add_z, Scalar3.smul_x, Scalar3.smul_y,
      Scalar3.smul_z]
    ring
  simp only [h]
  have hg : HasDerivAt (fun t : ℝ => 2 * dot a v + t * dot v v) (dot v v) 0 :=
    (hasDerivAt_mul_const (dot v v)).const_add (2 * dot a v)
  exact (((hasDerivAt_id' (0 : ℝ)).mul hg).const_add (dot a a)).congr_deriv (by simp)

end HoomdMath
