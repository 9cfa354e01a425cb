import HoomdBlue.PotentialBondSums

/-! # Bond forces as the gradient of the bond energy

Scalars are read as exact arithmetic (a field; the calculus over `ℝ`). Positions enter the loop
only through `minImage(pos[b] - pos[a])`; from that, translation invariance, the virial as the
moment `∑ r_k ⊗ F_k`, and, for evaluators whose `force_divr` is `-2 dE/drsq`, forces and virial
rows as derivatives of the total bond energy. -/
namespace PotentialBondGradient

open HoomdMath PotentialBond PotentialBondSums Finset

variable {Scalar param_type : Type} [Field Scalar]

/-- The configuration with particle `k` moved by `t • v k`; the fourth component of a position,
the particle type, is kept. -/
def displace (pdata : ParticleData Scalar) (v : Nat → Scalar3 Scalar) (t : Scalar) :
    ParticleData Scalar :=
  { pdata with
    pos := fun k => ⟨(pdata.pos k).x + t * (v k).x, (pdata.pos k).y + t * (v k).y,
      (pdata.pos k).z + t * (v k).z, (pdata.pos k).w⟩ }

def outer (a b : Scalar3 Scalar) : Fin 6 → Scalar :=
  ![a.x * b.x, a.x * b.y, a.x * b.z, a.y * b.y, a.y * b.z, a.z * b.z]

/-- The homogeneous deformation of a position `p` that virial row `j` measures: row `xy` moves
a particle along `y` by its `x` coordinate, and likewise for `xx, xz, yy, yz, zz`. -/
def strain (j : Fin 6) (p : Scalar3 Scalar) : Scalar3 Scalar :=
  ![⟨p.x, 0, 0⟩, ⟨0, p.x, 0⟩, ⟨0, 0, p.x⟩, ⟨0, p.y, 0⟩, ⟨0, 0, p.y⟩, ⟨0, 0, p.z⟩] j

def bondEnergy (eval : Evaluator Scalar param_type) (pdata : ParticleData Scalar)
    (minImage : Scalar3 Scalar → Scalar3 Scalar) (params : Nat → param_type) (size : Nat)
    (bonds : Nat → Bond) : Scalar :=
  ∑ i in range size, (bondEval eval pdata minImage params (bonds i)).bond_eng

section Displace

variable (eval : Evaluator Scalar param_type) (pdata : ParticleData Scalar)
  (minImage : Scalar3 Scalar → Scalar3 Scalar) (v : Nat → Scalar3 Scalar) (t : Scalar)

@[simp] theorem displace_rtag : (displace pdata v t).rtag = pdata.rtag := rfl

theorem xyz_sub_displace (a b : Nat) :
    ((displace pdata v t).pos b).xyz - ((displace pdata v t).pos a).xyz =
      (pdata.pos b).xyz - (pdata.pos a).xyz + t • (v b - v a) := by
  ext <;> simp only [displace, Scalar4.xyz, makeScalar3, Scalar3.sub_x, Scalar3.sub_y,
    Scalar3.sub_z, Scalar3.add_x, Scalar3.add_y, Scalar3.add_z, Scalar3.smul_x, Scalar3.smul_y,
    Scalar3.smul_z] <;> ring

theorem separation_displace (bond : Bond) :
    separation (displace pdata v t) bond =
      separation pdata bond + t • (v (pdata.rtag bond.tag1) - v (pdata.rtag bond.tag0)) :=
  xyz_sub_displace pdata v t _ _

@[simp] theorem evaluatorOutput_displace (params : Nat → param_type) :
    evaluatorOutput eval (displace pdata v t) params = evaluatorOutput eval pdata params := rfl

theorem evalBond_displace (param : param_type) (idx_a idx_b : Nat) :
    evalBond eval (displace pdata v t) minImage param idx_a idx_b =
      evalBond eval pdata (fun d => minImage (d + t • (v idx_b - v idx_a))) param idx_a
        idx_b := by
  have h := xyz_sub_displace pdata v t idx_a idx_b
  simp only [Scalar4.xyz] at h
  simp only [evalBond, h]
  rfl

theorem evalBond_translate (c : Scalar3 Scalar) (param : param_type) (idx_a idx_b : Nat) :
    evalBond eval (displace pdata (fun _ => c) t) minImage param idx_a idx_b =
      evalBond eval pdata minImage param idx_a idx_b := by
  simp only [evalBond_displace, sub_self, Scalar3.smul_zero, add_zero]

theorem computeBond_translate (c : Scalar3 Scalar) (params : Nat → param_type)
    (compute_virial : Bool) (fa : ForceArrays Scalar) (bond : Bond) :
    computeBond eval (displace pdata (fun _ => c) t) minImage params compute_virial fa bond =
      computeBond eval pdata minImage params compute_virial fa bond := by
  simp only [computeBond, evalBond_translate]
  rfl

end Displace

/-- In exact arithmetic, moving every particle by one vector `c` changes neither what
`computeForces` returns nor any `energyDiff`: both read positions only through separations. -/
theorem computeForces_translation_invariant (eval : Evaluator Scalar param_type)
    (pdata : ParticleData Scalar) (minImage : Scalar3 Scalar → Scalar3 Scalar)
    (params : Nat → param_type) (compute_virial : Bool) (size : Nat) (bonds : Nat → Bond)
    (c : Scalar3 Scalar) :
    computeForces eval (displace pdata (fun _ => c) 1) minImage params compute_virial size bonds =
        computeForces eval pdata minImage params compute_virial size bonds ∧
      ∀ idx_a idx_b idx_c idx_d type_id,
        energyDiff eval (displace pdata (fun _ => c) 1) minImage params idx_a idx_b idx_c idx_d
            type_id =
          energyDiff eval pdata minImage params idx_a idx_b idx_c idx_d type_id :=
  ⟨by simp only [computeForces, computeBond_translate],
    fun _ _ _ _ _ => by simp only [energyDiff, evalBond_translate]⟩

theorem sum_particles_filter_at {M : Type} [AddCommMonoid M] {N size : Nat} (g : Nat → Nat)
    (F : Nat → Nat → M) (hg : ∀ i < size, g i < N) :
    ∑ k in range N, ∑ i in (range size).filter (fun i => g i = k), F i k =
      ∑ i in range size, F i (g i) := by
  rw [← sum_particles_filter g (fun i => F i (g i)) hg]
  exact sum_congr rfl fun k _ => sum_congr rfl fun i hi => by rw [(mem_filter.1 hi).2]

def biadditive {M : Type} [AddCommGroup M] (B : Scalar3 Scalar → Scalar3 Scalar → M)
    (h₁ : ∀ a b c, B (a + b) c = B a c + B b c)
    (h₂ : ∀ a b c, B a (b + c) = B a b + B a c) :
    Scalar3 Scalar →+ Scalar3 Scalar →+ M :=
  AddMonoidHom.mk' (fun a => AddMonoidHom.mk' (B a) (h₂ a)) fun a b => AddMonoidHom.ext (h₁ a b)

section Moment

variable {eval : Evaluator Scalar param_type} {pdata : ParticleData Scalar}
  {minImage : Scalar3 Scalar → Scalar3 Scalar} {params : Nat → param_type}
  {compute_virial : Bool} {size : Nat} {bonds : Nat → Bond} {fa : ForceArrays Scalar}

/-- The moments of the forces of a run: for `B` additive in each argument, the sum over the
particles of `B (u k) F_k` is the sum over the bonds of `B` at the difference of `u` across the
bond and the bond's force. -/
theorem computeForces_moment {M : Type} [AddCommGroup M]
    (h : computeForces eval pdata minImage params compute_virial size bonds = .ok fa)
    (hloc : ∀ i < size,
      pdata.rtag (bonds i).tag0 < pdata.N ∧ pdata.rtag (bonds i).tag1 < pdata.N)
    (B : Scalar3 Scalar → Scalar3 Scalar → M) (h₁ : ∀ a b c, B (a + b) c = B a c + B b c)
    (h₂ : ∀ a b c, B a (b + c) = B a b + B a c) (u : Nat → Scalar3 Scalar) :
    ∑ k in range pdata.N, B (u k) (fa.force k).xyz =
      ∑ i in range size, B (u (pdata.rtag (bonds i).tag1) - u (pdata.rtag (bonds i).tag0))
        (bondForce eval pdata minImage params (bonds i)) := by
  let B' := biadditive B h₁ h₂
  change ∑ k in range pdata.N, B' (u k) (fa.force k).xyz =
    ∑ i in range size, B' (u (pdata.rtag (bonds i).tag1) - u (pdata.rtag (bonds i).tag0))
      (bondForce eval pdata minImage params (bonds i))
  rw [sum_congr rfl fun k hk => by
      rw [computeForces_force_xyz h (mem_range.1 hk), map_sub, map_sum, map_sum],
    sum_sub_distrib]
  simp only [firstAt, secondAt]
  rw [sum_particles_filter_at _ _ fun i hi => (hloc i hi).2,
    sum_particles_filter_at _ _ fun i hi => (hloc i hi).1, ← sum_sub_distrib]
  simp only [map_sub, AddMonoidHom.sub_apply]

theorem computeForces_work
    (h : computeForces eval pdata minImage params compute_virial size bonds = .ok fa)
    (hloc : ∀ i < size,
      pdata.rtag (bonds i).tag0 < pdata.N ∧ pdata.rtag (bonds i).tag1 < pdata.N)
    (v : Nat → Scalar3 Scalar) :
    ∑ k in range pdata.N, dot (fa.force k).xyz (v k) =
      ∑ i in range size, dot (bondForce eval pdata minImage params (bonds i))
        (v (pdata.rtag (bonds i).tag1) - v (pdata.rtag (bonds i).tag0)) :=
  computeForces_moment h hloc (fun u f => dot f u) (fun a b c => dot_add_right c a b)
    (fun a b c => dot_add_left b c a) v

theorem computeForces_virial_total [CharZero Scalar]
    (h : computeForces eval pdata minImage params true size bonds = .ok fa)
    (hloc : ∀ i < size,
      pdata.rtag (bonds i).tag0 < pdata.N ∧ pdata.rtag (bonds i).tag1 < pdata.N) (j : Fin 6) :
    ∑ k in range pdata.N, fa.virial j k =
      ∑ i in range size, (bondEval eval pdata minImage params (bonds i)).force_divr *
        dyad (bondEval eval pdata minImage params (bonds i)).dx j := by
  rw [sum_congr rfl fun k hk => computeForces_virial h (mem_range.1 hk) j, ← mul_sum,
    sum_add_distrib]
  simp only [firstAt, secondAt]
  rw [sum_particles_filter _ _ fun i hi => (hloc i hi).1,
    sum_particles_filter _ _ fun i hi => (hloc i hi).2, ← two_mul, ← mul_assoc,
    one_div_mul_cancel two_ne_zero, one_mul]

theorem outer_add_left (a b c : Scalar3 Scalar) : outer (a + b) c = outer a c + outer b c := by
  funext j
  fin_cases j <;> exact add_mul _ _ _

theorem outer_add_right (a b c : Scalar3 Scalar) : outer a (b + c) = outer a b + outer a c := by
  funext j
  fin_cases j <;> exact mul_add _ _ _

theorem outer_smul_self (c : Scalar) (a : Scalar3 Scalar) (j : Fin 6) :
    outer a (c • a) j = c * dyad a j := by
  fin_cases j <;> exact mul_left_comm _ _ _

theorem dot_strain (j : Fin 6) (p f : Scalar3 Scalar) : dot f (strain j p) = outer p f j := by
  fin_cases j <;> norm_num [dot, strain, outer] <;> ring

theorem computeForces_virial_outer [CharZero Scalar]
    (h : computeForces eval pdata minImage params true size bonds = .ok fa)
    (hloc : ∀ i < size,
      pdata.rtag (bonds i).tag0 < pdata.N ∧ pdata.rtag (bonds i).tag1 < pdata.N)
    (hmin : ∀ i < size, minImage (separation pdata (bonds i)) = separation pdata (bonds i))
    (j : Fin 6) :
    ∑ k in range pdata.N, fa.virial j k =
      ∑ k in range pdata.N, outer (pdata.pos k).xyz (fa.force k).xyz j := by
  rw [computeForces_virial_total h hloc, ← Finset.sum_apply j,
    computeForces_moment h hloc outer outer_add_left outer_add_right, Finset.sum_apply]
  refine sum_congr rfl fun i hi => ?_
  rw [bondForce, show (bondEval eval pdata minImage params (bonds i)).dx =
    separation pdata (bonds i) from hmin i (mem_range.1 hi)]
  exact (outer_smul_self _ _ j).symm

/-- In exact arithmetic, when no bond's separation is wrapped by the minimum image, the virial
a run accumulates is the configurational virial `∑ r_k ⊗ F_k` of the positions and forces, and
the bond forces exert no net torque `∑ r_k × F_k`. -/
theorem computeForces_virial_eq_moment [CharZero Scalar] (eval : Evaluator Scalar param_type)
    (pdata : ParticleData Scalar) (minImage : Scalar3 Scalar → Scalar3 Scalar)
    (params : Nat → param_type) (compute_virial : Bool) (size : Nat) (bonds : Nat → Bond)
    (fa : ForceArrays Scalar)
    (h : computeForces eval pdata minImage params compute_virial size bonds = .ok fa)
    (hloc : ∀ i < size,
      pdata.rtag (bonds i).tag0 < pdata.N ∧ pdata.rtag (bonds i).tag1 < pdata.N)
    (hmin : ∀ i < size, minImage (separation pdata (bonds i)) = separation pdata (bonds i)) :
    (compute_virial = true → ∀ j, ∑ k in range pdata.N, fa.virial j k =
      ∑ k in range pdata.N, outer (pdata.pos k).xyz (fa.force k).xyz j) ∧
      ∑ k in range pdata.N, cross (pdata.pos k).xyz (fa.force k).xyz = 0 := by
  refine ⟨fun hcv => computeForces_virial_outer (hcv ▸ h) hloc hmin, ?_⟩
  rw [computeForces_moment h hloc cross cross_add_left cross_add_right]
  refine sum_eq_zero fun i hi => ?_
  rw [bondForce, show (bondEval eval pdata minImage params (bonds i)).dx =
    separation pdata (bonds i) from hmin i (mem_range.1 hi)]
  exact cross_smul_self _ _

theorem chain_virial_moment :
    ∃ fa, computeForces harmonic chain id (fun _ => 1) true 2 chainBonds = .ok fa ∧
      (∀ j, ∑ k in range 3, fa.virial j k =
        ∑ k in range 3, outer (chain.pos k).xyz (fa.force k).xyz j) ∧
      ∑ k in range 3, cross (chain.pos k).xyz (fa.force k).xyz = 0 :=
  let h := computeForces_virial_eq_moment harmonic chain id (fun _ => 1) true 2 chainBonds _ rfl
    (by decide) (fun _ _ => rfl)
  ⟨_, rfl, h.1 rfl, h.2⟩

end Moment

/-! ### The forces as minus the gradient of the energy -/

section Gradient

/-- At squared length `rsq` with parameters `param`, the evaluator's `force_divr` is
`-2 dE/drsq` of the energy it returns, whatever diameters and charges it is given. -/
def ForceDerivesAt (eval : Evaluator ℝ param_type) (param : param_type) (rsq : ℝ) : Prop :=
  ∀ da db qa qb, HasDerivAt (fun r => (eval.evalForceAndEnergy r param da db qa qb).2.2)
    (-(eval.evalForceAndEnergy rsq param da db qa qb).2.1 / 2) rsq

/-- Near `t = 0`, the minimum image of the separation of `bond`'s members moved along `v` is
the image of the separation moved by as much: the separation is off the planes where the
minimum image jumps. -/
def MinImageSmoothAt (minImage : Scalar3 ℝ → Scalar3 ℝ) (pdata : ParticleData ℝ)
    (v : Nat → Scalar3 ℝ) (bond : Bond) : Prop :=
  let w := v (pdata.rtag bond.tag1) - v (pdata.rtag bond.tag0)
  ∀ᶠ t in nhds (0 : ℝ),
    minImage (separation pdata bond + t • w) = minImage (separation pdata bond) + t • w

variable {eval : Evaluator ℝ param_type} {pdata : ParticleData ℝ}
  {minImage : Scalar3 ℝ → Scalar3 ℝ} {params : Nat → param_type} {v : Nat → Scalar3 ℝ}

theorem hasDerivAt_bond_eng {bond : Bond}
    (hE : ForceDerivesAt eval (params bond.type)
      (dot (bondEval eval pdata minImage params bond).dx
        (bondEval eval pdata minImage params bond).dx))
    (hmin : MinImageSmoothAt minImage pdata v bond) :
    HasDerivAt (fun t => (bondEval eval (displace pdata v t) minImage params bond).bond_eng)
      (-dot (bondForce eval pdata minImage params bond)
        (v (pdata.rtag bond.tag1) - v (pdata.rtag bond.tag0))) 0 := by
  simp only [bondForce, bondEval, separation_displace, evaluatorOutput_displace]
  simp only [MinImageSmoothAt] at hmin
  set d := separation pdata bond
  set w := v (pdata.rtag bond.tag1) - v (pdata.rtag bond.tag0)
  have hE' : HasDerivAt (fun r => (evaluatorOutput eval pdata params bond r).2.2)
      (-(evaluatorOutput eval pdata params bond (dot (minImage d) (minImage d))).2.1 / 2)
      (dot (minImage d) (minImage d)) := hE _ _ _ _
  refine ((hE'.comp_of_eq 0 (hasDerivAt_dot_self (minImage d) w)
    (by simp only [Scalar3.zero_smul, add_zero])).congr_of_eventuallyEq
      (hmin.mono fun t ht => ?_)).congr_deriv ?_
  · simp only [Function.comp_apply, ht]
  · rw [dot_smul_left]
    ring

theorem hasDerivAt_bondEnergy {compute_virial : Bool} {size : Nat} {bonds : Nat → Bond}
    {fa : ForceArrays ℝ}
    (h : computeForces eval pdata minImage params compute_virial size bonds = .ok fa)
    (hloc : ∀ i < size,
      pdata.rtag (bonds i).tag0 < pdata.N ∧ pdata.rtag (bonds i).tag1 < pdata.N)
    (hE : ∀ i < size, ForceDerivesAt eval (params (bonds i).type)
      (dot (bondEval eval pdata minImage params (bonds i)).dx
        (bondEval eval pdata minImage params (bonds i)).dx))
    (hmin : ∀ i < size, MinImageSmoothAt minImage pdata v (bonds i)) :
    HasDerivAt (fun t => bondEnergy eval (displace pdata v t) minImage params size bonds)
      (-∑ k in range pdata.N, dot (fa.force k).xyz (v k)) 0 := by
  rw [computeForces_work h hloc, ← sum_neg_distrib]
  exact HasDerivAt.sum fun i hi =>
    hasDerivAt_bond_eng (hE i (mem_range.1 hi)) (hmin i (mem_range.1 hi))

/-- When the evaluator's force derives from its energy at each bond's length and the minimum
image does not jump at the bonds' separations, the forces a run of `computeForces` over local
bonds writes are minus the gradient of the total bond energy in the positions: moving particle
`k` by `t v_k` changes the energy at rate `-∑ F_k · v_k`. That bond energy is the total of the
run's per-particle energies. -/
theorem computeForces_eq_neg_energy_gradient (eval : Evaluator ℝ param_type)
    (pdata : ParticleData ℝ) (minImage : Scalar3 ℝ → Scalar3 ℝ)
    (params : Nat → param_type) (compute_virial : Bool) (size : Nat) (bonds : Nat → Bond)
    (fa : ForceArrays ℝ) (v : Nat → Scalar3 ℝ)
    (h : computeForces eval pdata minImage params compute_virial size bonds = .ok fa)
    (hloc : ∀ i < size,
      pdata.rtag (bonds i).tag0 < pdata.N ∧ pdata.rtag (bonds i).tag1 < pdata.N)
    (hE : ∀ i < size, ForceDerivesAt eval (params (bonds i).type)
      (dot (bondEval eval pdata minImage params (bonds i)).dx
        (bondEval eval pdata minImage params (bonds i)).dx))
    (hmin : ∀ i < size, MinImageSmoothAt minImage pdata v (bonds i)) :
    ∑ k in range pdata.N, (fa.force k).w = bondEnergy eval pdata minImage params size bonds ∧
      HasDerivAt (fun t => bondEnergy eval (displace pdata v t) minImage params size bonds)
        (-∑ k in range pdata.N, dot (fa.force k).xyz (v k)) 0 :=
  ⟨computeForces_energy_total h hloc, hasDerivAt_bondEnergy h hloc hE hmin⟩

/-- With the pressure tensor flag, local bonds, and bond separations the minimum image leaves
alone, each virial row of a run, summed over the particles, is minus the derivative of the total
bond energy under the homogeneous deformation of the positions that the row measures. -/
theorem computeForces_virial_eq_neg_strain_derivative (eval : Evaluator ℝ param_type)
    (pdata : ParticleData ℝ) (minImage : Scalar3 ℝ → Scalar3 ℝ) (params : Nat → param_type)
    (size : Nat) (bonds : Nat → Bond) (fa : ForceArrays ℝ)
    (h : computeForces eval pdata minImage params true size bonds = .ok fa)
    (hloc : ∀ i < size,
      pdata.rtag (bonds i).tag0 < pdata.N ∧ pdata.rtag (bonds i).tag1 < pdata.N)
    (hE : ∀ i < size, ForceDerivesAt eval (params (bonds i).type)
      (dot (bondEval eval pdata minImage params (bonds i)).dx
        (bondEval eval pdata minImage params (bonds i)).dx))
    (hmin : ∀ i < size, minImage (separation pdata (bonds i)) = separation pdata (bonds i))
    (hsmooth : ∀ j, ∀ i < size,
      MinImageSmoothAt minImage pdata (fun k => strain j (pdata.pos k).xyz) (bonds i))
    (j : Fin 6) :
    HasDerivAt (fun t => bondEnergy eval (displace pdata (fun k => strain j (pdata.pos k).xyz) t)
        minImage params size bonds)
      (-∑ k in range pdata.N, fa.virial j k) 0 := by
  refine (hasDerivAt_bondEnergy h hloc hE (hsmooth j)).congr_deriv ?_
  simp only [computeForces_virial_outer h hloc hmin j, dot_strain]

end Gradient

def harmonicSpring : Evaluator Scalar Scalar :=
  ⟨false, false, fun rsq K _ _ _ _ => (true, -K, K * rsq / 2)⟩

def dimer : ParticleData Scalar := ⟨2, 0, fun k => ⟨k, 0, 0, 0⟩, fun _ => 1, fun _ => 0, id⟩

theorem harmonicSpring_forceDerivesAt (K rsq : ℝ) : ForceDerivesAt harmonicSpring K rsq :=
  fun _ _ _ _ => (((hasDerivAt_id rsq).const_mul K).div_const 2).congr_deriv
    (by simp [harmonicSpring])

theorem dimer_energy_gradient :
    ∃ fa, computeForces (harmonicSpring : Evaluator ℝ ℝ) dimer id (fun _ => 1) false 1
        (fun _ => ⟨0, 1, 0⟩) = .ok fa ∧
      ∑ k in range 2, (fa.force k).w =
          bondEnergy harmonicSpring dimer id (fun _ => 1) 1 (fun _ => ⟨0, 1, 0⟩) ∧
        HasDerivAt
          (fun t => bondEnergy harmonicSpring
            (displace dimer (fun k => (⟨k, 0, 0⟩ : Scalar3 ℝ)) t) id
            (fun _ => 1) 1 (fun _ => ⟨0, 1, 0⟩))
          (-∑ k in range 2, dot (fa.force k).xyz ⟨k, 0, 0⟩) 0 :=
  ⟨_, rfl, computeForces_eq_neg_energy_gradient harmonicSpring dimer id (fun _ => 1) false 1 _ _ _
    rfl (by decide) (fun _ _ => harmonicSpring_forceDerivesAt _ _)
    (fun _ _ => Filter.Eventually.of_forall fun _ => rfl)⟩

theorem dimer_virial_strain :
    ∃ fa, computeForces (harmonicSpring : Evaluator ℝ ℝ) dimer id (fun _ => 1) true 1
        (fun _ => ⟨0, 1, 0⟩) = .ok fa ∧
      HasDerivAt
        (fun t => bondEnergy harmonicSpring
          (displace dimer (fun k => strain 0 ((dimer : ParticleData ℝ).pos k).xyz) t) id
          (fun _ => 1) 1 (fun _ => ⟨0, 1, 0⟩))
        (-∑ k in range 2, fa.virial 0 k) 0 :=
  ⟨_, rfl, computeForces_virial_eq_neg_strain_derivative harmonicSpring dimer id (fun _ => 1) 1
    (fun _ => ⟨0, 1, 0⟩) _ rfl (by decide) (fun _ _ => harmonicSpring_forceDerivesAt _ _)
    (fun _ _ => rfl) (fun _ _ _ => Filter.Eventually.of_forall fun _ => rfl) 0⟩

end PotentialBondGradient
