import HoomdBlue.HoomdMath

/-! # The Janus envelope

`JanusFactor` of `md/JanusFactor.h` and `GeneralEnvelope<JanusFactor>::evaluate`. The constructor
writes the rotated directions to locals `ei`, `ej` that shadow the members, so the members keep
their prior storage, an argument here; `fast::exp`, `fast::sqrt` and `rotate` are arguments too. -/
namespace JanusEnvelope

open HoomdMath

/-- `fast::exp`, `fast::sqrt`, and `rotate(quat<Scalar>(q), v)`. -/
structure Intrinsics (Scalar : Type) where
  exp : Scalar → Scalar
  sqrt : Scalar → Scalar
  rotate : Scalar4 Scalar → Scalar3 Scalar → Scalar3 Scalar

structure JanusFactor (Scalar : Type) where
  dr : Scalar3 Scalar
  qi : Scalar4 Scalar
  qj : Scalar4 Scalar
  params : Scalar2 Scalar
  ei : Scalar3 Scalar
  ej : Scalar3 Scalar
  drsq : Scalar
  magdr : Scalar
  doti : Scalar
  dotj : Scalar

structure EnvelopeOut (Scalar : Type) where
  force : Scalar3 Scalar
  isoModulator : Scalar
  torque_i : Scalar3 Scalar
  torque_j : Scalar3 Scalar

variable {Scalar : Type} [Field Scalar]

/-- `JanusFactor(_dr, _qi, _qj, _rcutsq, _params)` when the storage of the members `ei`, `ej`
holds `ei_mem`, `ej_mem`: the rotated directions reach the locals only. -/
def janusFactor (m : Intrinsics Scalar) (ei_mem ej_mem : Scalar3 Scalar) (dr : Scalar3 Scalar)
    (qi qj : Scalar4 Scalar) (_rcutsq : Scalar) (params : Scalar2 Scalar) : JanusFactor Scalar :=
  let e := makeScalar3 (1 : Scalar) 0 0
  let ei := m.rotate qi e
  let ej := m.rotate qj e
  let drsq := dr.x * dr.x + dr.y * dr.y + dr.z * dr.z
  let magdr := m.sqrt drsq
  let doti := -(dr.x * ei.x + dr.y * ei.y + dr.z * ei.z) / magdr
  let dotj := (dr.x * ej.x + dr.y * ej.y + dr.z * ej.z) / magdr
  ⟨dr, qi, qj, params, ei_mem, ej_mem, drsq, magdr, doti, dotj⟩

/-- The bodies of `Modulatori`/`Modulatorj` and `ModulatorPrimei`/`ModulatorPrimej` at `dot`. -/
def modulator (m : Intrinsics Scalar) (params : Scalar2 Scalar) (dot : Scalar) : Scalar :=
  1 / (1 + m.exp (-params.x * (dot - params.y)))

def modulatorPrime (m : Intrinsics Scalar) (params : Scalar2 Scalar) (dot : Scalar) : Scalar :=
  let fact := modulator m params dot
  params.x * m.exp (-params.x * (dot - params.y)) * fact * fact

def JanusFactor.modulatori (s : JanusFactor Scalar) (m : Intrinsics Scalar) : Scalar :=
  modulator m s.params s.doti

def JanusFactor.modulatorj (s : JanusFactor Scalar) (m : Intrinsics Scalar) : Scalar :=
  modulator m s.params s.dotj

def JanusFactor.modulatorPrimei (s : JanusFactor Scalar) (m : Intrinsics Scalar) : Scalar :=
  modulatorPrime m s.params s.doti

def JanusFactor.modulatorPrimej (s : JanusFactor Scalar) (m : Intrinsics Scalar) : Scalar :=
  modulatorPrime m s.params s.dotj

/-- `GeneralEnvelope<JanusFactor>::evaluate` on the envelope's factor `s`. -/
def evaluate (m : Intrinsics Scalar) (s : JanusFactor Scalar) : Bool × EnvelopeOut Scalar :=
  let modi := s.modulatori m
  let modj := s.modulatorj m
  let modPi := s.modulatorPrimei m
  let modPj := s.modulatorPrimej m
  let isoModulator := modi * modj
  let iPj := modPi * modj / s.magdr
  let jPi := modPj * modi / s.magdr
  let torque_i : Scalar3 Scalar := ⟨iPj * (s.dr.z * s.ei.y - s.dr.y * s.ei.z),
    iPj * (s.dr.x * s.ei.z - s.dr.z * s.ei.x), iPj * (s.dr.y * s.ei.x - s.dr.x * s.ei.y)⟩
  let torque_j : Scalar3 Scalar := ⟨jPi * (s.dr.y * s.ej.z - s.dr.z * s.ej.y),
    jPi * (s.dr.z * s.ej.x - s.dr.x * s.ej.z), jPi * (s.dr.x * s.ej.y - s.dr.y * s.ej.x)⟩
  let force : Scalar3 Scalar :=
    ⟨-(iPj * (-s.ei.x - s.doti * s.dr.x / s.magdr) + jPi * (s.ej.x - s.dotj * s.dr.x / s.magdr)),
      -(iPj * (-s.ei.y - s.doti * s.dr.y / s.magdr) + jPi * (s.ej.y - s.dotj * s.dr.y / s.magdr)),
      -(iPj * (-s.ei.z - s.doti * s.dr.z / s.magdr) + jPi * (s.ej.z - s.dotj * s.dr.z / s.magdr))⟩
  (true, ⟨force, isoModulator, torque_i, torque_j⟩)

/-! ### What `evaluate` computes -/

/-- The Janus direction of a particle with orientation `q`: the body `x` axis rotated by `q`. -/
def direction (m : Intrinsics Scalar) (q : Scalar4 Scalar) : Scalar3 Scalar :=
  m.rotate q (makeScalar3 1 0 0)

section Outputs

variable (m : Intrinsics Scalar) (s : JanusFactor Scalar)

theorem evaluate_torque_i : (evaluate m s).2.torque_i =
    (s.modulatorPrimei m * s.modulatorj m / s.magdr) • cross s.ei s.dr := by
  ext <;> simp only [evaluate, cross, Scalar3.smul_x, Scalar3.smul_y, Scalar3.smul_z] <;> ring

theorem evaluate_torque_j : (evaluate m s).2.torque_j =
    (s.modulatorPrimej m * s.modulatori m / s.magdr) • cross s.dr s.ej := by
  ext <;> simp only [evaluate, cross, Scalar3.smul_x, Scalar3.smul_y, Scalar3.smul_z]

theorem evaluate_force : (evaluate m s).2.force =
    -((s.modulatorPrimei m * s.modulatorj m / s.magdr) • (-s.ei - (s.doti / s.magdr) • s.dr) +
      (s.modulatorPrimej m * s.modulatori m / s.magdr) •
        (s.ej - (s.dotj / s.magdr) • s.dr)) := by
  ext <;> simp only [evaluate, Scalar3.smul_x, Scalar3.smul_y, Scalar3.smul_z, Scalar3.neg_x,
    Scalar3.neg_y, Scalar3.neg_z, Scalar3.add_x, Scalar3.add_y, Scalar3.add_z, Scalar3.sub_x,
    Scalar3.sub_y, Scalar3.sub_z] <;> ring

end Outputs

/-- At `dr = (0, 1, 0)`, both orientations the identity quaternion, `params = (1, 0)` and zeroed
member storage, `evaluate` returns no torque on `i`, while `iPj (ei × dr)` with the rotated
direction `ei = (1, 0, 0)` is `(0, 0, 1/8)`. -/
theorem evaluate_torque_i_zeroed_storage [CharZero Scalar] (m : Intrinsics Scalar)
    (hexp : m.exp 0 = 1) (hsqrt : m.sqrt 1 = 1)
    (hrot : m.rotate ⟨1, 0, 0, 0⟩ ⟨1, 0, 0⟩ = ⟨1, 0, 0⟩) (rcutsq : Scalar) :
    let s := janusFactor m 0 0 ⟨0, 1, 0⟩ ⟨1, 0, 0, 0⟩ ⟨1, 0, 0, 0⟩ rcutsq ⟨1, 0⟩
    let iPj := s.modulatorPrimei m * s.modulatorj m / s.magdr
    (evaluate m s).2.torque_i = 0 ∧
      iPj • cross (direction m s.qi) s.dr = ⟨0, 0, 1 / 8⟩ := by
  intro s iPj
  have hei : direction m s.qi = ⟨1, 0, 0⟩ := hrot
  have hej : direction m s.qj = ⟨1, 0, 0⟩ := hrot
  have hmagdr : s.magdr = 1 := by
    show m.sqrt (0 * 0 + 1 * 1 + 0 * 0) = 1
    norm_num [hsqrt]
  have hdoti : s.doti = 0 := by
    rw [show s.doti = -dot ⟨0, 1, 0⟩ (direction m s.qi) / s.magdr from rfl, hei, hmagdr]
    norm_num [dot]
  have hdotj : s.dotj = 0 := by
    rw [show s.dotj = dot ⟨0, 1, 0⟩ (direction m s.qj) / s.magdr from rfl, hej, hmagdr]
    norm_num [dot]
  have hmod : modulator m ⟨1, 0⟩ 0 = 1 / 2 := by norm_num [modulator, hexp]
  have hmodP : modulatorPrime m ⟨1, 0⟩ 0 = 1 / 4 := by
    simp only [modulatorPrime, hmod]
    norm_num [hexp]
  have hiPj : iPj = 1 / 8 := by
    show modulatorPrime m ⟨1, 0⟩ s.doti * modulator m ⟨1, 0⟩ s.dotj / s.magdr = 1 / 8
    rw [hdoti, hdotj, hmagdr, hmod, hmodP]
    norm_num
  refine ⟨?_, ?_⟩
  · rw [evaluate_torque_i]
    show _ • cross 0 _ = 0
    rw [cross_zero_left, Scalar3.smul_zero]
  · rw [hiPj, hei]
    show (1 / 8 : Scalar) • cross ⟨1, 0, 0⟩ ⟨0, 1, 0⟩ = _
    ext <;> simp [cross]

/-- `rotate(quat<Scalar>(q), v)` of `VectorMath.h` with `quat(q) = (q.x, (q.y, q.z, q.w))`:
`(s² - u·u) v + 2 s (u × v) + 2 (u·v) u`. -/
def quatRotate (q : Scalar4 Scalar) (v : Scalar3 Scalar) : Scalar3 Scalar :=
  let s := q.x
  let u := makeScalar3 q.y q.z q.w
  (s * s - dot u u) • v + (2 * s) • cross u v + (2 * dot u v) • u

theorem zeroed_storage_real :
    let m : Intrinsics ℝ := ⟨Real.exp, Real.sqrt, quatRotate⟩
    (m.exp 0 = 1 ∧ m.sqrt 1 = 1 ∧ m.rotate ⟨1, 0, 0, 0⟩ ⟨1, 0, 0⟩ = ⟨1, 0, 0⟩) ∧
    let s := janusFactor m 0 0 ⟨0, 1, 0⟩ ⟨1, 0, 0, 0⟩ ⟨1, 0, 0, 0⟩ 1 ⟨1, 0⟩
    let iPj := s.modulatorPrimei m * s.modulatorj m / s.magdr
    (evaluate m s).2.torque_i = 0 ∧
      iPj • cross (direction m s.qi) s.dr = ⟨0, 0, 1 / 8⟩ := by
  have hrot : quatRotate (⟨1, 0, 0, 0⟩ : Scalar4 ℝ) ⟨1, 0, 0⟩ = ⟨1, 0, 0⟩ := by
    ext <;> simp only [quatRotate, cross, dot, makeScalar3, Scalar3.add_x, Scalar3.add_y,
      Scalar3.add_z, Scalar3.smul_x, Scalar3.smul_y, Scalar3.smul_z] <;> norm_num
  exact ⟨⟨Real.exp_zero, Real.sqrt_one, hrot⟩,
    evaluate_torque_i_zeroed_storage ⟨Real.exp, Real.sqrt, quatRotate⟩ Real.exp_zero
      Real.sqrt_one hrot 1⟩

end JanusEnvelope
