import HoomdBlue.PotentialBondSums

/-! # The energy difference of a bond swap

`energyDiff(a, b, c, d, t)` evaluates the two bonds directly, without halving. It agrees with the
change of the total of the per-particle energies `computeForces` accumulates when the bond
`(a, b)` of the table is replaced by a bond `(c, d)` of the same type. -/
namespace PotentialBondEnergyDiff

open HoomdMath PotentialBond PotentialBondSums Finset

variable {Scalar param_type : Type} [Field Scalar]

section

variable {eval : Evaluator Scalar param_type} {pdata : ParticleData Scalar}
  {minImage : Scalar3 Scalar → Scalar3 Scalar} {params : Nat → param_type}
  {size : Nat} {bonds : Nat → Bond}

theorem computeForces_ok_of_local (compute_virial : Bool)
    (hloc : ∀ i < size,
      pdata.rtag (bonds i).tag0 < pdata.N ∧ pdata.rtag (bonds i).tag1 < pdata.N)
    (hacc : ∀ i < size, (bondEval eval pdata minImage params (bonds i)).evaluated = true) :
    ∃ fa, computeForces eval pdata minImage params compute_virial size bonds = .ok fa :=
  computeForces_ok_iff.2 fun i hi =>
    ⟨by have := (hloc i hi).1; omega, by have := (hloc i hi).2; omega, hacc i hi⟩

/-- Replacing bond `i` changes the sum of the bond energies by the difference of the two. -/
theorem sum_update_sub (f : Bond → Scalar) {i : Nat} (hi : i < size) (bond : Bond) :
    ∑ j in range size, f (Function.update bonds i bond j) - ∑ j in range size, f (bonds j) =
      f bond - f (bonds i) := by
  rw [← add_sum_erase _ _ (mem_range.2 hi),
    ← add_sum_erase _ (fun j => f (bonds j)) (mem_range.2 hi),
    Function.update_same,
    sum_congr rfl fun j hj => by rw [Function.update_noteq (ne_of_mem_erase hj)],
    add_sub_add_right_eq_sub]

end

/-- For a table of local bonds the evaluator accepts, `energyDiff` at bond `i` and a new pair of
local particles is `DBL_MAX` when the evaluator rejects the new bond at its `dx · dx`, and
otherwise the change in the total per-particle energy of `computeForces` when bond `i` is replaced
by the new bond. -/
theorem energyDiff_eq_energy_change [CharZero Scalar] (eval : Evaluator Scalar param_type)
    (pdata : ParticleData Scalar) (minImage : Scalar3 Scalar → Scalar3 Scalar)
    (params : Nat → param_type) (compute_virial : Bool) (size : Nat) (bonds : Nat → Bond)
    (hloc : ∀ i < size,
      pdata.rtag (bonds i).tag0 < pdata.N ∧ pdata.rtag (bonds i).tag1 < pdata.N)
    (hacc : ∀ i < size, let dx := minImage (separation pdata (bonds i))
      (evaluatorOutput eval pdata params (bonds i) (dot dx dx)).1 = true)
    (i : Nat) (hi : i < size) (tag_c tag_d : Nat)
    (hc : pdata.rtag tag_c < pdata.N) (hd : pdata.rtag tag_d < pdata.N) :
    let swap : Bond := ⟨tag_c, tag_d, (bonds i).type⟩
    let dx := minImage (separation pdata swap)
    let evaluated := (evaluatorOutput eval pdata params swap (dot dx dx)).1
    let diff := energyDiff eval pdata minImage params (pdata.rtag (bonds i).tag0)
      (pdata.rtag (bonds i).tag1) (pdata.rtag tag_c) (pdata.rtag tag_d) (bonds i).type
    ∃ fa, computeForces eval pdata minImage params compute_virial size bonds = .ok fa ∧
      (evaluated = false → diff = dblMax) ∧
      (evaluated = true →
        ∃ fa', computeForces eval pdata minImage params compute_virial size
            (Function.update bonds i swap) = .ok fa' ∧
          diff =
            ∑ k in range pdata.N, (fa'.force k).w - ∑ k in range pdata.N, (fa.force k).w) := by
  intro swap dx evaluated diff
  obtain ⟨fa, h⟩ := computeForces_ok_of_local compute_virial hloc hacc
  refine ⟨fa, h, fun hrej => if_neg (ne_true_of_eq_false hrej), fun hev => ?_⟩
  have hloc' : ∀ j < size, pdata.rtag (Function.update bonds i swap j).tag0 < pdata.N ∧
      pdata.rtag (Function.update bonds i swap j).tag1 < pdata.N := fun j hj => by
    by_cases hji : j = i
    · subst hji; simpa [swap] using ⟨hc, hd⟩
    · simpa [Function.update_noteq hji] using hloc j hj
  have hacc' : ∀ j < size,
      (bondEval eval pdata minImage params (Function.update bonds i swap j)).evaluated = true :=
    fun j hj => by
      by_cases hji : j = i
      · subst hji; simpa using hev
      · simpa [Function.update_noteq hji] using hacc j hj
  obtain ⟨fa', h'⟩ := computeForces_ok_of_local compute_virial hloc' hacc'
  refine ⟨fa', h', ?_⟩
  rw [computeForces_energy_total h' hloc', computeForces_energy_total h hloc,
    sum_update_sub (fun b => (bondEval eval pdata minImage params b).bond_eng) hi]
  exact if_pos hev

theorem chain_swap_energy :
    ∃ fa, computeForces harmonic chain id (fun _ => 1) true 2 chainBonds = .ok fa ∧
      ((evaluatorOutput harmonic chain (fun _ => 1) ⟨0, 2, 0⟩
          (dot (separation chain ⟨0, 2, 0⟩) (separation chain ⟨0, 2, 0⟩))).1 = false →
        energyDiff harmonic chain id (fun _ => 1) 1 2 0 2 0 = dblMax) ∧
      ((evaluatorOutput harmonic chain (fun _ => 1) ⟨0, 2, 0⟩
          (dot (separation chain ⟨0, 2, 0⟩) (separation chain ⟨0, 2, 0⟩))).1 = true →
        ∃ fa', computeForces harmonic chain id (fun _ => 1) true 2
            (Function.update chainBonds 1 ⟨0, 2, 0⟩) = .ok fa' ∧
          energyDiff harmonic chain id (fun _ => 1) 1 2 0 2 0 =
            ∑ k in range chain.N, (fa'.force k).w - ∑ k in range chain.N, (fa.force k).w) :=
  energyDiff_eq_energy_change harmonic chain id (fun _ => 1) true 2 chainBonds (by decide)
    (by decide) 1 (by decide) 0 2 (by decide) (by decide)

end PotentialBondEnergyDiff
