import HoomdBlue.JanusEnvelope

/-! # The envelope's force and torques as derivatives

With the exact exponential, `dr ≠ 0` and the rotated directions in the members where `evaluate`
reads them, the force is `-∇_dr isoModulator` and each torque is `-e × ∂U/∂e`: the formulas are
right, the storage they read is not. Whatever that storage holds, angular momentum balances. -/
namespace JanusEnvelopeGradient

open HoomdMath JanusEnvelope

/-- `isoModulator` as a function of the directions and the separation. -/
def isoModulation {Scalar : Type} [Field Scalar] (m : Intrinsics Scalar) (params : Scalar2 Scalar)
    (ei ej dr : Scalar3 Scalar) : Scalar :=
  modulator m params (-dot dr ei / m.sqrt (dot dr dr)) *
    modulator m params (dot dr ej / m.sqrt (dot dr dr))

/-- `ModulatorPrime` is the derivative of `Modulator`. -/
theorem hasDerivAt_modulator (rot : Scalar4 ℝ → Scalar3 ℝ → Scalar3 ℝ)
    (params : Scalar2 ℝ)
    {f : ℝ → ℝ} {f' x : ℝ} (hf : HasDerivAt f f' x) :
    HasDerivAt (fun t => modulator ⟨Real.exp, Real.sqrt, rot⟩ params (f t))
      (modulatorPrime ⟨Real.exp, Real.sqrt, rot⟩ params (f x) * f') x := by
  have hg := (((hf.sub_const params.y).const_mul (-params.x)).exp.const_add 1).inv
    (by positivity : 1 + Real.exp (-params.x * (f x - params.y)) ≠ 0)
  simp only [modulator, modulatorPrime, one_div]
  exact hg.congr_deriv (by rw [div_eq_mul_inv, ← inv_pow]; ring)

/-! ### The force -/

theorem evaluate_force_dot {Scalar : Type} [Field Scalar] (m : Intrinsics Scalar)
    (s : JanusFactor Scalar) (v : Scalar3 Scalar) :
    dot (evaluate m s).2.force v =
      -(s.modulatorPrimei m * s.modulatorj m / s.magdr *
          (-dot v s.ei - s.doti * dot s.dr v / s.magdr) +
        s.modulatorPrimej m * s.modulatori m / s.magdr *
          (dot v s.ej - s.dotj * dot s.dr v / s.magdr)) := by
  simp only [evaluate, dot]
  ring

theorem gradient_algebra {S vi vj di dj rv Pi Pj Mi Mj : ℝ} (hS : S ≠ 0) :
    Pi * ((-vi * S - -di * (2 * rv / (2 * S))) / S ^ 2) * Mj +
        Mi * (Pj * ((vj * S - dj * (2 * rv / (2 * S))) / S ^ 2)) =
      -(-(Pi * Mj / S * (-vi - -di / S * rv / S) + Pj * Mi / S * (vj - dj / S * rv / S))) := by
  linear_combination (S⁻¹ * (Mi * Pj * vj - Pi * Mj * vi)) * mul_inv_cancel₀ hS

/-- For `dr ≠ 0` and the directions in the members, the derivative of the modulation along any
`v` is minus the force's component along `v`: the force is `-∇_dr isoModulator`. -/
theorem evaluate_force_eq_neg_gradient (rot : Scalar4 ℝ → Scalar3 ℝ → Scalar3 ℝ)
    (qi qj : Scalar4 ℝ) (rcutsq : ℝ) (params : Scalar2 ℝ) (dr v : Scalar3 ℝ)
    (hdr : dot dr dr ≠ 0) :
    let m : Intrinsics ℝ := ⟨Real.exp, Real.sqrt, rot⟩
    let s := janusFactor m (direction m qi) (direction m qj) dr qi qj rcutsq params
    HasDerivAt
      (fun t : ℝ => isoModulation m params (direction m qi) (direction m qj) (dr + t • v))
      (-dot (evaluate m s).2.force v) 0 := by
  intro m s
  have hS : Real.sqrt (dot dr dr) ≠ 0 :=
    Real.sqrt_ne_zero'.2 (lt_of_le_of_ne (dot_self_nonneg dr) (Ne.symm hdr))
  have hsq := (hasDerivAt_dot_self dr v).sqrt (by rwa [Scalar3.zero_smul, add_zero])
  rw [Scalar3.zero_smul, add_zero] at hsq
  have hi := (hasDerivAt_dot_left dr v (direction m qi)).neg.div hsq
    (by rwa [Scalar3.zero_smul, add_zero])
  have hj := (hasDerivAt_dot_left dr v (direction m qj)).div hsq
    (by rwa [Scalar3.zero_smul, add_zero])
  have h := (hasDerivAt_modulator rot params hi).mul
    (hasDerivAt_modulator rot params hj)
  simp only [Scalar3.zero_smul, add_zero] at h
  refine h.congr_deriv ?_
  rw [evaluate_force_dot]
  exact gradient_algebra hS

theorem unit_y_force_gradient :
    dot (⟨0, 1, 0⟩ : Scalar3 ℝ) ⟨0, 1, 0⟩ ≠ 0 ∧
      HasDerivAt (fun t : ℝ => isoModulation ⟨Real.exp, Real.sqrt, quatRotate⟩ ⟨1, 0⟩
          (direction ⟨Real.exp, Real.sqrt, quatRotate⟩ ⟨1, 0, 0, 0⟩)
          (direction ⟨Real.exp, Real.sqrt, quatRotate⟩ ⟨1, 0, 0, 0⟩)
          (⟨0, 1, 0⟩ + t • ⟨1, 0, 0⟩))
        (-dot (evaluate ⟨Real.exp, Real.sqrt, quatRotate⟩
          (janusFactor ⟨Real.exp, Real.sqrt, quatRotate⟩
            (direction ⟨Real.exp, Real.sqrt, quatRotate⟩ ⟨1, 0, 0, 0⟩)
            (direction ⟨Real.exp, Real.sqrt, quatRotate⟩ ⟨1, 0, 0, 0⟩) ⟨0, 1, 0⟩
            ⟨1, 0, 0, 0⟩ ⟨1, 0, 0, 0⟩ 1 ⟨1, 0⟩)).2.force ⟨1, 0, 0⟩) 0 :=
  ⟨by norm_num [dot],
    evaluate_force_eq_neg_gradient quatRotate ⟨1, 0, 0, 0⟩ ⟨1, 0, 0, 0⟩ 1 ⟨1, 0⟩
      ⟨0, 1, 0⟩ ⟨1, 0, 0⟩ (by norm_num [dot])⟩

/-- For `dr ≠ 0` and the directions in the members, the modulation depends only on the direction
of `dr`, so the force of `evaluate` has no component along `dr`. -/
theorem evaluate_force_perp (rot : Scalar4 ℝ → Scalar3 ℝ → Scalar3 ℝ) (qi qj : Scalar4 ℝ)
    (rcutsq : ℝ) (params : Scalar2 ℝ) (dr : Scalar3 ℝ) (hdr : dot dr dr ≠ 0) :
    let m : Intrinsics ℝ := ⟨Real.exp, Real.sqrt, rot⟩
    let s := janusFactor m (direction m qi) (direction m qj) dr qi qj rcutsq params
    dot (evaluate m s).2.force dr = 0 := by
  intro m s
  have hradial : ∀ a : ℝ, a / Real.sqrt (dot dr dr) * dot dr dr / Real.sqrt (dot dr dr) = a :=
    fun a => by rw [div_mul_eq_mul_div, div_div, Real.mul_self_sqrt (dot_self_nonneg dr),
      mul_div_assoc, div_self hdr, mul_one]
  rw [evaluate_force_dot]
  show -(_ * (-dot dr (direction m qi) -
      -dot dr (direction m qi) / Real.sqrt (dot dr dr) * dot dr dr / Real.sqrt (dot dr dr)) +
    _ * (dot dr (direction m qj) -
      dot dr (direction m qj) / Real.sqrt (dot dr dr) * dot dr dr / Real.sqrt (dot dr dr))) = 0
  rw [hradial, hradial, sub_self, sub_self, mul_zero, mul_zero, add_zero, neg_zero]

theorem unit_y_force_perp :
    dot (⟨0, 1, 0⟩ : Scalar3 ℝ) ⟨0, 1, 0⟩ ≠ 0 ∧
      dot (evaluate ⟨Real.exp, Real.sqrt, quatRotate⟩
        (janusFactor ⟨Real.exp, Real.sqrt, quatRotate⟩
          (direction ⟨Real.exp, Real.sqrt, quatRotate⟩ ⟨1, 0, 0, 0⟩)
          (direction ⟨Real.exp, Real.sqrt, quatRotate⟩ ⟨1, 0, 0, 0⟩) ⟨0, 1, 0⟩
          ⟨1, 0, 0, 0⟩ ⟨1, 0, 0, 0⟩ 1 ⟨1, 0⟩)).2.force ⟨0, 1, 0⟩ = 0 :=
  ⟨by norm_num [dot], evaluate_force_perp quatRotate ⟨1, 0, 0, 0⟩ ⟨1, 0, 0, 0⟩ 1 ⟨1, 0⟩ ⟨0, 1, 0⟩
    (by norm_num [dot])⟩

/-! ### The torques -/

theorem neg_cross_neg_smul (a b : Scalar3 ℝ) (c : ℝ) :
    -cross a ((-c) • b) = c • cross a b := by
  ext <;> simp only [cross, Scalar3.neg_x, Scalar3.neg_y, Scalar3.neg_z, Scalar3.smul_x,
    Scalar3.smul_y, Scalar3.smul_z] <;> ring

theorem neg_cross_smul (a b : Scalar3 ℝ) (c : ℝ) : -cross a (c • b) = c • cross b a := by
  ext <;> simp only [cross, Scalar3.neg_x, Scalar3.neg_y, Scalar3.neg_z, Scalar3.smul_x,
    Scalar3.smul_y, Scalar3.smul_z] <;> ring

/-- For `dr ≠ 0` and the directions in the members, the torques of `evaluate` are `-ei × ∂U/∂ei`
and `-ej × ∂U/∂ej` for the modulation `U`, the gradients given by their derivatives along every
`v`. At `dr = 0` the code divides by zero; the identity needs no other use of `dr ≠ 0`. -/
theorem evaluate_torques_eq_neg_cross_gradient (rot : Scalar4 ℝ → Scalar3 ℝ → Scalar3 ℝ)
    (qi qj : Scalar4 ℝ) (rcutsq : ℝ) (params : Scalar2 ℝ) (dr : Scalar3 ℝ)
    (_hdr : dot dr dr ≠ 0) :
    let m : Intrinsics ℝ := ⟨Real.exp, Real.sqrt, rot⟩
    let ei := direction m qi
    let ej := direction m qj
    let out := (evaluate m (janusFactor m ei ej dr qi qj rcutsq params)).2
    ∃ gi gj : Scalar3 ℝ,
      (∀ v, HasDerivAt (fun t : ℝ => isoModulation m params (ei + t • v) ej dr)
        (dot gi v) 0) ∧
      (∀ v, HasDerivAt (fun t : ℝ => isoModulation m params ei (ej + t • v) dr)
        (dot gj v) 0) ∧
      out.torque_i = -cross ei gi ∧ out.torque_j = -cross ej gj := by
  intro m ei ej out
  let S := m.sqrt (dot dr dr)
  let iPj := modulatorPrime m params (-dot dr ei / S) * modulator m params (dot dr ej / S) / S
  let jPi := modulatorPrime m params (dot dr ej / S) * modulator m params (-dot dr ei / S) / S
  refine ⟨(-iPj) • dr, jPi • dr, fun v => ?_, fun v => ?_, ?_, ?_⟩
  · have h := (hasDerivAt_modulator rot params
      ((hasDerivAt_dot_right dr ei v).neg.div_const S)).mul_const
        (modulator m params (dot dr ej / S))
    simp only [Scalar3.zero_smul, add_zero] at h
    refine h.congr_deriv ?_
    rw [dot_smul_left]
    ring
  · have h := (hasDerivAt_modulator rot params
      ((hasDerivAt_dot_right dr ej v).div_const S)).const_mul (modulator m params (-dot dr ei / S))
    simp only [Scalar3.zero_smul, add_zero] at h
    refine h.congr_deriv ?_
    rw [dot_smul_left]
    ring
  · exact (evaluate_torque_i _ _).trans (neg_cross_neg_smul ei dr iPj).symm
  · exact (evaluate_torque_j _ _).trans (neg_cross_smul ej dr jPi).symm

theorem unit_y_torque_gradient :
    dot (⟨0, 1, 0⟩ : Scalar3 ℝ) ⟨0, 1, 0⟩ ≠ 0 ∧
      let m : Intrinsics ℝ := ⟨Real.exp, Real.sqrt, quatRotate⟩
      let ei := direction m ⟨1, 0, 0, 0⟩
      let ej := direction m ⟨1, 0, 0, 0⟩
      let out := (evaluate m (janusFactor m ei ej ⟨0, 1, 0⟩ ⟨1, 0, 0, 0⟩ ⟨1, 0, 0, 0⟩ 1
        ⟨1, 0⟩)).2
      ∃ gi gj : Scalar3 ℝ,
        (∀ v, HasDerivAt (fun t : ℝ => isoModulation m ⟨1, 0⟩ (ei + t • v) ej ⟨0, 1, 0⟩)
          (dot gi v) 0) ∧
        (∀ v, HasDerivAt (fun t : ℝ => isoModulation m ⟨1, 0⟩ ei (ej + t • v) ⟨0, 1, 0⟩)
          (dot gj v) 0) ∧
        out.torque_i = -cross ei gi ∧ out.torque_j = -cross ej gj :=
  ⟨by norm_num [dot], evaluate_torques_eq_neg_cross_gradient quatRotate ⟨1, 0, 0, 0⟩
    ⟨1, 0, 0, 0⟩ 1 ⟨1, 0⟩ ⟨0, 1, 0⟩ (by norm_num [dot])⟩

/-! ### Angular momentum -/

/-- In exact arithmetic and for `|dr| ≠ 0`, where the code's divisions are defined, whatever the
members' storage holds, the torques and the force of `evaluate` exert no net torque on the pair:
`τ_i + τ_j + dr × F = 0`. The storage bug breaks the gradient relations, not this balance. -/
theorem evaluate_torque_balance {Scalar : Type} [Field Scalar] (m : Intrinsics Scalar)
    (s : JanusFactor Scalar) (_hmag : s.magdr ≠ 0) :
    (evaluate m s).2.torque_i + (evaluate m s).2.torque_j + cross s.dr (evaluate m s).2.force =
      0 := by
  rw [evaluate_torque_i, evaluate_torque_j, evaluate_force]
  ext <;> simp only [cross, Scalar3.add_x, Scalar3.add_y, Scalar3.add_z, Scalar3.sub_x,
    Scalar3.sub_y, Scalar3.sub_z, Scalar3.neg_x, Scalar3.neg_y, Scalar3.neg_z, Scalar3.smul_x,
    Scalar3.smul_y, Scalar3.smul_z, Scalar3.zero_x, Scalar3.zero_y, Scalar3.zero_z] <;> ring

/-- The balance at the input where the zeroed storage gives the wrong torque. -/
theorem zeroed_storage_torque_balance :
    let m : Intrinsics ℝ := ⟨Real.exp, Real.sqrt, quatRotate⟩
    let s := janusFactor m 0 0 ⟨0, 1, 0⟩ ⟨1, 0, 0, 0⟩ ⟨1, 0, 0, 0⟩ 1 ⟨1, 0⟩
    s.magdr ≠ 0 ∧
      (evaluate m s).2.torque_i + (evaluate m s).2.torque_j + cross s.dr (evaluate m s).2.force =
        0 :=
  ⟨by norm_num [janusFactor], evaluate_torque_balance _ _ (by norm_num [janusFactor])⟩

end JanusEnvelopeGradient
