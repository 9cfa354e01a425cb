import HoomdBlue.PotentialBond

/-! # What the bond loop accumulates per particle

`bondEval` specifies one bond: the evaluator at `dx · dx`, `dx = minImage(pos[b] - pos[a])`;
`evalBond_eq_bondEval` ties the loop's `evalBond` to it. From one inversion lemma per iteration,
each entry after a successful run is a sum over bonds. -/
namespace PotentialBondSums

open HoomdMath PotentialBond Finset

variable {Scalar param_type : Type} [Field Scalar]

theorem except_bind_eq_ok {ε α β : Type} {x : Except ε α} {f : α → Except ε β} {b : β} :
    x >>= f = .ok b ↔ ∃ a, x = .ok a ∧ f a = .ok b := by
  cases x <;> simp [bind, Except.bind]

/-! ### One guarded update at a particle -/

section Update

variable {N idx k : Nat} {compute_virial : Bool} {f : Scalar4 Scalar → Scalar4 Scalar}
  {bond_virial : Fin 6 → Scalar} {fa : ForceArrays Scalar}

theorem guarded_force_of_lt (hk : k < N) :
    (if idx < N then fa.update compute_virial idx f bond_virial else fa).force k =
      if idx = k then f (fa.force k) else fa.force k := by
  by_cases h : idx = k
  · subst h; simp [hk, ForceArrays.update]
  · split_ifs <;> simp [ForceArrays.update, Function.update_noteq (Ne.symm h), h]

theorem guarded_force_of_le (hk : N ≤ k) :
    (if idx < N then fa.update compute_virial idx f bond_virial else fa).force k = fa.force k := by
  split_ifs
  · simp [ForceArrays.update, Function.update_noteq (show k ≠ idx by omega)]
  · rfl

theorem guarded_virial_of_lt (hk : k < N) (j : Fin 6) :
    (if idx < N then fa.update true idx f bond_virial else fa).virial j k =
      fa.virial j k + if idx = k then bond_virial j else 0 := by
  by_cases h : idx = k
  · subst h; simp [hk, ForceArrays.update]
  · split_ifs <;> simp [ForceArrays.update, Function.update_noteq (Ne.symm h), h]

theorem guarded_virial_of_le (hk : N ≤ k) (j : Fin 6) :
    (if idx < N then fa.update compute_virial idx f bond_virial else fa).virial j k =
      fa.virial j k := by
  split_ifs
  · cases compute_virial
    · rfl
    · exact Function.update_noteq (show k ≠ idx by omega) _ _
  · rfl

theorem guarded_virial_false :
    (if idx < N then fa.update false idx f bond_virial else fa).virial = fa.virial := by
  split_ifs <;> rfl

end Update

/-! ### The updates of one accepted bond -/

section Accumulate

variable {pdata : ParticleData Scalar} {compute_virial : Bool} {idx_a idx_b k : Nat}
  {r : BondEval Scalar} {fa : ForceArrays Scalar}

theorem accumulate_force_xyz (hk : k < pdata.N) :
    ((accumulate pdata compute_virial idx_a idx_b r fa).force k).xyz = (fa.force k).xyz +
      ((if idx_b = k then r.force_divr • r.dx else 0) -
        (if idx_a = k then r.force_divr • r.dx else 0)) := by
  simp only [accumulate, guarded_force_of_lt hk]
  by_cases hb : idx_b = k <;> by_cases ha : idx_a = k <;> simp only [hb, ha, if_true, if_false] <;>
    ext <;> simp <;> ring

theorem accumulate_force_w (hk : k < pdata.N) :
    ((accumulate pdata compute_virial idx_a idx_b r fa).force k).w = (fa.force k).w +
      ((if idx_b = k then r.bond_eng * (1 / 2) else 0) +
        (if idx_a = k then r.bond_eng * (1 / 2) else 0)) := by
  simp only [accumulate, guarded_force_of_lt hk]
  by_cases hb : idx_b = k <;> by_cases ha : idx_a = k <;> simp [hb, ha, add_assoc]

theorem accumulate_virial (hk : k < pdata.N) (j : Fin 6) :
    (accumulate pdata true idx_a idx_b r fa).virial j k = fa.virial j k +
      ((if idx_b = k then bondVirial r.dx r.force_divr j else 0) +
        (if idx_a = k then bondVirial r.dx r.force_divr j else 0)) := by
  simp only [accumulate, guarded_virial_of_lt hk, add_assoc]

theorem accumulate_virial_false : (accumulate pdata false idx_a idx_b r fa).virial = fa.virial := by
  simp only [accumulate, guarded_virial_false]

theorem accumulate_virial_ghost (hk : pdata.N ≤ k) (j : Fin 6) :
    (accumulate pdata compute_virial idx_a idx_b r fa).virial j k = fa.virial j k := by
  simp only [accumulate, guarded_virial_of_le hk]

theorem accumulate_force_ghost (hk : pdata.N ≤ k) :
    (accumulate pdata compute_virial idx_a idx_b r fa).force k = fa.force k := by
  simp only [accumulate, guarded_force_of_le hk]

end Accumulate

/-! ### The loop -/

section Loop

variable (eval : Evaluator Scalar param_type) (pdata : ParticleData Scalar)
  (minImage : Scalar3 Scalar → Scalar3 Scalar) (params : Nat → param_type)

def separation (bond : Bond) : Scalar3 Scalar :=
  (pdata.pos (pdata.rtag bond.tag1)).xyz - (pdata.pos (pdata.rtag bond.tag0)).xyz

/-- The evaluator's `(evaluated, force_divr, bond_eng)` for `bond` at squared length `rsq`: its
type's parameters, and its members' diameters and charges where the evaluator needs them. -/
def evaluatorOutput (bond : Bond) (rsq : Scalar) : Bool × Scalar × Scalar :=
  let a := pdata.rtag bond.tag0
  let b := pdata.rtag bond.tag1
  eval.evalForceAndEnergy rsq (params bond.type)
    (if eval.needsDiameter then pdata.diameter a else 0)
    (if eval.needsDiameter then pdata.diameter b else 0)
    (if eval.needsCharge then pdata.charge a else 0)
    (if eval.needsCharge then pdata.charge b else 0)

/-- `bond` with `dx = minImage(pos[b] - pos[a])` (`a = rtag[tag0]`, `b = rtag[tag1]`) and the
evaluator's output at `rsq = dx · dx`. -/
def bondEval (bond : Bond) : BondEval Scalar :=
  let dx := minImage (separation pdata bond)
  let r := evaluatorOutput eval pdata params bond (dot dx dx)
  ⟨dx, r.1, r.2.1, r.2.2⟩

/-- The pair evaluation of the loop and of `energyDiff`, at a bond's members, is `bondEval`. -/
theorem evalBond_eq_bondEval (bond : Bond) :
    evalBond eval pdata minImage (params bond.type) (pdata.rtag bond.tag0)
      (pdata.rtag bond.tag1) = bondEval eval pdata minImage params bond := rfl

/-- `bond` passes both checks of the loop: members present, evaluator accepts. -/
def Accepted (bond : Bond) : Prop :=
  pdata.rtag bond.tag0 < pdata.N + pdata.NGhosts ∧
    pdata.rtag bond.tag1 < pdata.N + pdata.NGhosts ∧
    (bondEval eval pdata minImage params bond).evaluated = true

def bondForce (bond : Bond) : Scalar3 Scalar :=
  (bondEval eval pdata minImage params bond).force_divr •
    (bondEval eval pdata minImage params bond).dx

def firstAt (bonds : Nat → Bond) (size k : Nat) : Finset Nat :=
  (range size).filter fun i => pdata.rtag (bonds i).tag0 = k

def secondAt (bonds : Nat → Bond) (size k : Nat) : Finset Nat :=
  (range size).filter fun i => pdata.rtag (bonds i).tag1 = k

def dyad (dx : Scalar3 Scalar) : Fin 6 → Scalar :=
  ![dx.x * dx.x, dx.x * dx.y, dx.x * dx.z, dx.y * dx.y, dx.y * dx.z, dx.z * dx.z]

theorem bondVirial_eq_half_dyad (dx : Scalar3 Scalar) (force_divr : Scalar) (j : Fin 6) :
    bondVirial dx force_divr j = 1 / 2 * (force_divr * dyad dx j) := by
  have key : ∀ a b : Scalar, a * b * (1 / 2 * force_divr) = 1 / 2 * (force_divr * (a * b)) :=
    fun a b => by ring
  fin_cases j <;> exact key _ _

def bondError (bond : Bond) : String :=
  if pdata.rtag bond.tag0 < pdata.N + pdata.NGhosts ∧
      pdata.rtag bond.tag1 < pdata.N + pdata.NGhosts
  then "Error in bond calculation"
  else "Error: bond " ++ toString bond.tag0 ++ " " ++ toString bond.tag1 ++ " is incomplete."

variable {eval pdata minImage params}
variable {compute_virial : Bool} {bonds : Nat → Bond}

theorem computeBond_eq_ok {fa fa' : ForceArrays Scalar} {bond : Bond} :
    computeBond eval pdata minImage params compute_virial fa bond = .ok fa' ↔
      Accepted eval pdata minImage params bond ∧
        accumulate pdata compute_virial (pdata.rtag bond.tag0) (pdata.rtag bond.tag1)
          (bondEval eval pdata minImage params bond) fa = fa' := by
  simp only [computeBond, Accepted, evalBond_eq_bondEval, ge_iff_le]
  split_ifs with hi hev
  · exact ⟨False.elim, fun ⟨⟨ha, hb, _⟩, _⟩ => by omega⟩
  · exact ⟨fun h => ⟨⟨by omega, by omega, hev⟩, Except.ok.inj h⟩,
      fun h => congrArg _ h.2⟩
  · exact ⟨False.elim, fun ⟨⟨_, _, h⟩, _⟩ => absurd h hev⟩

theorem computeBond_eq_error {fa : ForceArrays Scalar} {bond : Bond} {msg : String} :
    computeBond eval pdata minImage params compute_virial fa bond = .error msg ↔
      ¬ Accepted eval pdata minImage params bond ∧ msg = bondError pdata bond := by
  unfold computeBond Accepted bondError
  by_cases hc : pdata.rtag bond.tag0 < pdata.N + pdata.NGhosts ∧
      pdata.rtag bond.tag1 < pdata.N + pdata.NGhosts
  · have hn : ¬(pdata.rtag bond.tag0 ≥ pdata.N + pdata.NGhosts ∨
        pdata.rtag bond.tag1 ≥ pdata.N + pdata.NGhosts) := by omega
    simp only [hn, hc, if_false, if_true, true_and, evalBond_eq_bondEval]
    cases (bondEval eval pdata minImage params bond).evaluated <;> simp [eq_comm]
  · have hi : pdata.rtag bond.tag0 ≥ pdata.N + pdata.NGhosts ∨
        pdata.rtag bond.tag1 ≥ pdata.N + pdata.NGhosts := by omega
    simp only [hi, hc, if_false, if_true]
    exact ⟨fun h => ⟨fun ha => hc ⟨ha.1, ha.2.1⟩, (Except.error.inj h).symm⟩,
      fun ⟨_, h⟩ => h ▸ rfl⟩

theorem computeForces_zero :
    computeForces eval pdata minImage params compute_virial 0 bonds = .ok ForceArrays.zero := rfl

theorem computeForces_succ_eq {n : Nat} :
    computeForces eval pdata minImage params compute_virial (n + 1) bonds =
      computeForces eval pdata minImage params compute_virial n bonds >>= fun fa =>
        computeBond eval pdata minImage params compute_virial fa (bonds n) := by
  simp only [computeForces, List.range_succ, List.foldlM_append, List.foldlM_cons,
    List.foldlM_nil, bind_pure]

theorem computeForces_succ {n : Nat} {fa' : ForceArrays Scalar} :
    computeForces eval pdata minImage params compute_virial (n + 1) bonds = .ok fa' ↔
      ∃ fa, computeForces eval pdata minImage params compute_virial n bonds = .ok fa ∧
        computeBond eval pdata minImage params compute_virial fa (bonds n) = .ok fa' := by
  rw [computeForces_succ_eq, except_bind_eq_ok]

/-- The run lemma: a quantity that every successful iteration `i` raises by `c i` ends at its
value on the zeroed arrays plus the sum of all `c i`. -/
theorem computeForces_obs {M : Type} [AddCommMonoid M] (obs : ForceArrays Scalar → M)
    (c : Nat → M) (hstep : ∀ i fa fa', computeBond eval pdata minImage params compute_virial fa
      (bonds i) = .ok fa' → obs fa' = obs fa + c i) :
    ∀ {n fa}, computeForces eval pdata minImage params compute_virial n bonds = .ok fa →
      obs fa = obs ForceArrays.zero + ∑ i in range n, c i
  | 0, _, h => by cases h; simp
  | n + 1, _, h => by
    obtain ⟨fa, hrun, hstep'⟩ := computeForces_succ.1 h
    rw [hstep _ _ _ hstep', computeForces_obs obs c hstep hrun, sum_range_succ, add_assoc]

theorem computeForces_ok_iff {n : Nat} :
    (∃ fa, computeForces eval pdata minImage params compute_virial n bonds = .ok fa) ↔
      ∀ i < n, Accepted eval pdata minImage params (bonds i) := by
  induction n with
  | zero => simp [computeForces_zero]
  | succ n ih =>
    simp only [computeForces_succ, computeBond_eq_ok, Nat.lt_succ_iff_lt_or_eq]
    constructor
    · rintro ⟨_, fa, hrun, hacc, -⟩ i (hi | rfl)
      exacts [ih.1 ⟨fa, hrun⟩ i hi, hacc]
    · intro h
      obtain ⟨fa, hrun⟩ := ih.2 fun i hi => h i (.inl hi)
      exact ⟨_, fa, hrun, h n (.inr rfl), rfl⟩

theorem computeForces_error_iff {n : Nat} {msg : String} :
    computeForces eval pdata minImage params compute_virial n bonds = .error msg ↔
      ∃ i < n, (∀ j < i, Accepted eval pdata minImage params (bonds j)) ∧
        ¬ Accepted eval pdata minImage params (bonds i) ∧ msg = bondError pdata (bonds i) := by
  induction n generalizing msg with
  | zero => simp [computeForces_zero]
  | succ n ih =>
    rw [computeForces_succ_eq]
    cases hrun : computeForces eval pdata minImage params compute_virial n bonds with
    | error e =>
      obtain ⟨i, hi, hpre, hrej, rfl⟩ := ih.1 hrun
      refine ⟨fun h => ⟨i, by omega, hpre, hrej, (Except.error.inj h).symm⟩, ?_⟩
      rintro ⟨i', -, hpre', hrej', rfl⟩
      obtain rfl : i' = i := by
        rcases Nat.lt_trichotomy i' i with h | h | h
        exacts [absurd (hpre i' h) hrej', h, absurd (hpre' i h) hrej]
      rfl
    | ok fa =>
      have hall := computeForces_ok_iff.1 ⟨fa, hrun⟩
      show computeBond eval pdata minImage params compute_virial fa (bonds n) = _ ↔ _
      rw [computeBond_eq_error]
      constructor
      · rintro ⟨hrej, rfl⟩
        exact ⟨n, n.lt_succ_self, hall, hrej, rfl⟩
      · rintro ⟨i, hi, -, hrej, rfl⟩
        obtain rfl : i = n := by
          by_contra hne
          exact hrej (hall i (by omega))
        exact ⟨hrej, rfl⟩

/-- The loop throws exactly at its first bond that fails a check, with that bond's exception. -/
theorem computeForces_eq_error {n : Nat} {msg : String} :
    computeForces eval pdata minImage params compute_virial n bonds = .error msg ↔
      ∃ i < n, (∀ j < i, Accepted eval pdata minImage params (bonds j)) ∧
        ¬ Accepted eval pdata minImage params (bonds i) ∧ msg = bondError pdata (bonds i) :=
  computeForces_error_iff

/-! ### Per-particle sums -/

variable {size : Nat} {fa : ForceArrays Scalar} {k : Nat}

theorem computeForces_force_xyz
    (h : computeForces eval pdata minImage params compute_virial size bonds = .ok fa)
    (hk : k < pdata.N) :
    (fa.force k).xyz =
      ∑ i in secondAt pdata bonds size k, bondForce eval pdata minImage params (bonds i) -
      ∑ i in firstAt pdata bonds size k, bondForce eval pdata minImage params (bonds i) := by
  rw [computeForces_obs (fun fa => (fa.force k).xyz) _ (fun i fa fa' hi => by
    obtain ⟨-, rfl⟩ := computeBond_eq_ok.1 hi; exact accumulate_force_xyz hk) h]
  simp only [secondAt, firstAt, sum_filter, ← sum_sub_distrib, bondForce]
  exact zero_add _

theorem computeForces_force_w
    (h : computeForces eval pdata minImage params compute_virial size bonds = .ok fa)
    (hk : k < pdata.N) :
    (fa.force k).w = 1 / 2 * (∑ i in firstAt pdata bonds size k,
      (bondEval eval pdata minImage params (bonds i)).bond_eng +
        ∑ i in secondAt pdata bonds size k,
          (bondEval eval pdata minImage params (bonds i)).bond_eng) := by
  rw [computeForces_obs (fun fa => (fa.force k).w) _ (fun i fa fa' hi => by
    obtain ⟨-, rfl⟩ := computeBond_eq_ok.1 hi; exact accumulate_force_w hk) h]
  simp only [secondAt, firstAt, sum_filter, sum_add_distrib, mul_add, mul_sum]
  simp only [ForceArrays.zero, zero_add, ite_mul, zero_mul, mul_comm (1 / 2 : Scalar), add_comm]

theorem computeForces_virial
    (h : computeForces eval pdata minImage params true size bonds = .ok fa)
    (hk : k < pdata.N) (j : Fin 6) :
    fa.virial j k = 1 / 2 * (∑ i in firstAt pdata bonds size k,
      (bondEval eval pdata minImage params (bonds i)).force_divr *
        dyad (bondEval eval pdata minImage params (bonds i)).dx j +
      ∑ i in secondAt pdata bonds size k,
        (bondEval eval pdata minImage params (bonds i)).force_divr *
          dyad (bondEval eval pdata minImage params (bonds i)).dx j) := by
  rw [computeForces_obs (fun fa => fa.virial j k) _ (fun i fa fa' hi => by
    obtain ⟨-, rfl⟩ := computeBond_eq_ok.1 hi; exact accumulate_virial hk j) h]
  simp only [secondAt, firstAt, sum_filter, sum_add_distrib, mul_add, mul_sum,
    bondVirial_eq_half_dyad]
  simp only [ForceArrays.zero, zero_add, mul_ite, mul_zero, add_comm]

theorem computeForces_inv (P : ForceArrays Scalar → Prop) (h0 : P ForceArrays.zero)
    (hstep : ∀ i fa fa', P fa →
      computeBond eval pdata minImage params compute_virial fa (bonds i) = .ok fa' → P fa') :
    ∀ {n fa}, computeForces eval pdata minImage params compute_virial n bonds = .ok fa → P fa
  | 0, _, h => by cases h; exact h0
  | n + 1, _, h => by
    obtain ⟨fa, hrun, hstep'⟩ := computeForces_succ.1 h
    exact hstep _ _ _ (computeForces_inv P h0 hstep hrun) hstep'

theorem computeForces_force_ghost
    (h : computeForces eval pdata minImage params compute_virial size bonds = .ok fa) :
    ∀ k, pdata.N ≤ k → fa.force k = ⟨0, 0, 0, 0⟩ :=
  computeForces_inv (fun fa => ∀ k, pdata.N ≤ k → fa.force k = ⟨0, 0, 0, 0⟩)
    (fun _ _ => rfl)
    (fun _ _ _ hinv hi k hk => by
      obtain ⟨-, rfl⟩ := computeBond_eq_ok.1 hi
      rw [accumulate_force_ghost hk, hinv k hk]) h

theorem computeForces_virial_ghost
    (h : computeForces eval pdata minImage params compute_virial size bonds = .ok fa) :
    ∀ k, pdata.N ≤ k → ∀ j, fa.virial j k = 0 :=
  computeForces_inv (fun fa => ∀ k, pdata.N ≤ k → ∀ j, fa.virial j k = 0)
    (fun _ _ _ => rfl)
    (fun _ _ _ hinv hi k hk j => by
      obtain ⟨-, rfl⟩ := computeBond_eq_ok.1 hi
      rw [accumulate_virial_ghost hk, hinv k hk]) h

theorem computeForces_virial_false
    (h : computeForces eval pdata minImage params false size bonds = .ok fa) :
    fa.virial = fun _ _ => 0 :=
  computeForces_inv (fun fa => fa.virial = fun _ _ => 0) rfl
    (fun _ _ _ hinv hi => by
      obtain ⟨-, rfl⟩ := computeBond_eq_ok.1 hi
      rw [accumulate_virial_false, hinv]) h

theorem sum_particles_filter {M : Type} [AddCommMonoid M] {N size : Nat} (g : Nat → Nat)
    (F : Nat → M) (hg : ∀ i < size, g i < N) :
    ∑ k in range N, ∑ i in (range size).filter (fun i => g i = k), F i =
      ∑ i in range size, F i := by
  simp only [sum_filter]
  rw [sum_comm]
  exact sum_congr rfl fun i hi => by rw [sum_ite_eq, if_pos (mem_range.2 (hg i (mem_range.1 hi)))]

theorem computeForces_energy_total [CharZero Scalar]
    (h : computeForces eval pdata minImage params compute_virial size bonds = .ok fa)
    (hloc : ∀ i < size,
      pdata.rtag (bonds i).tag0 < pdata.N ∧ pdata.rtag (bonds i).tag1 < pdata.N) :
    ∑ k in range pdata.N, (fa.force k).w =
      ∑ i in range size, (bondEval eval pdata minImage params (bonds i)).bond_eng := by
  rw [sum_congr rfl fun k hk => computeForces_force_w h (mem_range.1 hk), ← mul_sum,
    sum_add_distrib]
  simp only [firstAt, secondAt]
  rw [sum_particles_filter _ _ fun i hi => (hloc i hi).1,
    sum_particles_filter _ _ fun i hi => (hloc i hi).2, ← two_mul, ← mul_assoc,
    one_div_mul_cancel two_ne_zero, one_mul]

theorem computeForces_force_total
    (h : computeForces eval pdata minImage params compute_virial size bonds = .ok fa)
    (hloc : ∀ i < size,
      pdata.rtag (bonds i).tag0 < pdata.N ∧ pdata.rtag (bonds i).tag1 < pdata.N) :
    ∑ k in range pdata.N, (fa.force k).xyz = 0 := by
  rw [sum_congr rfl fun k hk => computeForces_force_xyz h (mem_range.1 hk), sum_sub_distrib]
  simp only [firstAt, secondAt]
  rw [sum_particles_filter _ _ fun i hi => (hloc i hi).1,
    sum_particles_filter _ _ fun i hi => (hloc i hi).2, sub_self]

end Loop

def harmonic : Evaluator ℚ ℚ := ⟨false, false, fun rsq K _ _ _ _ => (true, -K, K * rsq / 2)⟩

def chain : ParticleData ℚ := ⟨3, 0, fun k => ⟨k, 0, 0, 0⟩, fun _ => 1, fun _ => 0, id⟩

def chainBonds (i : Nat) : Bond := if i = 0 then ⟨0, 1, 0⟩ else ⟨1, 2, 0⟩

/-- After a run that does not throw, with `dx = minImage(pos[b] - pos[a])` and the evaluator's
`force_divr` and `bond_eng` at `dx · dx` for each bond: every local particle holds
`+force_divr * dx` of the bonds whose second member it is and `-force_divr * dx` of those whose
first member it is, half of each such bond's energy per member slot, and with the pressure
tensor flag half of `force_divr * dx ⊗ dx` per slot; with every member local, the forces sum to
zero and the energies to the total bond energy. -/
theorem computeForces_per_particle [CharZero Scalar] (eval : Evaluator Scalar param_type)
    (pdata : ParticleData Scalar) (minImage : Scalar3 Scalar → Scalar3 Scalar)
    (params : Nat → param_type) (compute_virial : Bool)
    (size : Nat) (bonds : Nat → Bond) (fa : ForceArrays Scalar)
    (h : computeForces eval pdata minImage params compute_virial size bonds = .ok fa) :
    let dx := fun i => minImage (separation pdata (bonds i))
    let force_divr := fun i => (evaluatorOutput eval pdata params (bonds i) (dot (dx i) (dx i))).2.1
    let bond_eng := fun i => (evaluatorOutput eval pdata params (bonds i) (dot (dx i) (dx i))).2.2
    (∀ k < pdata.N,
      (fa.force k).xyz = ∑ i in secondAt pdata bonds size k, force_divr i • dx i -
          ∑ i in firstAt pdata bonds size k, force_divr i • dx i ∧
      (fa.force k).w = 1 / 2 * (∑ i in firstAt pdata bonds size k, bond_eng i +
          ∑ i in secondAt pdata bonds size k, bond_eng i) ∧
      (compute_virial = true → ∀ j, fa.virial j k =
        1 / 2 * (∑ i in firstAt pdata bonds size k, force_divr i * dyad (dx i) j +
          ∑ i in secondAt pdata bonds size k, force_divr i * dyad (dx i) j))) ∧
    ((∀ i < size, pdata.rtag (bonds i).tag0 < pdata.N ∧ pdata.rtag (bonds i).tag1 < pdata.N) →
      ∑ k in range pdata.N, (fa.force k).xyz = 0 ∧
        ∑ k in range pdata.N, (fa.force k).w = ∑ i in range size, bond_eng i) :=
  ⟨fun _ hk => ⟨computeForces_force_xyz h hk, computeForces_force_w h hk,
      fun hcv j => computeForces_virial (hcv ▸ h) hk j⟩,
    fun hloc => ⟨computeForces_force_total h hloc, computeForces_energy_total h hloc⟩⟩

theorem chain_forces_cancel :
    ∃ fa, computeForces harmonic chain id (fun _ => 1) true 2 chainBonds = .ok fa ∧
      ∑ k in range chain.N, (fa.force k).xyz = 0 :=
  ⟨_, rfl, ((computeForces_per_particle harmonic chain id (fun _ => 1) true 2 chainBonds _ rfl).2
    (by decide)).1⟩

/-- A run that does not throw writes no ghost entry of the force array, and no virial without
the pressure tensor flag. -/
theorem computeForces_untouched (eval : Evaluator Scalar param_type) (pdata : ParticleData Scalar)
    (minImage : Scalar3 Scalar → Scalar3 Scalar) (params : Nat → param_type)
    (compute_virial : Bool) (size : Nat) (bonds : Nat → Bond) (fa : ForceArrays Scalar)
    (h : computeForces eval pdata minImage params compute_virial size bonds = .ok fa) :
    (∀ k, pdata.N ≤ k → fa.force k = ⟨0, 0, 0, 0⟩) ∧
      (compute_virial = false → fa.virial = fun _ _ => 0) :=
  ⟨computeForces_force_ghost h, fun hcv => computeForces_virial_false (hcv ▸ h)⟩

theorem chain_no_virial : ∃ fa, computeForces harmonic chain id (fun _ => 1) false 2 chainBonds =
    .ok fa ∧ fa.force chain.N = ⟨0, 0, 0, 0⟩ ∧ fa.virial = fun _ _ => 0 :=
  let h := computeForces_untouched harmonic chain id (fun _ => 1) false 2 chainBonds _ rfl
  ⟨_, rfl, h.1 _ le_rfl, h.2 rfl⟩

/-! ### The order of the bond table -/

section Order

variable {size : Nat} {σ : Equiv.Perm Nat}

theorem perm_lt (hσ : ∀ i, size ≤ i → σ i = i) {i : Nat} (hi : i < size) : σ i < size :=
  lt_of_not_le fun h => absurd (σ.injective (hσ _ h)) (by omega)

theorem sum_filter_perm {M : Type} [AddCommMonoid M] (hσ : ∀ i, size ≤ i → σ i = i)
    (bonds : Nat → Bond) (p : Bond → Prop) [DecidablePred p] (F : Bond → M) :
    ∑ i in (range size).filter (fun i => p (bonds (σ i))), F (bonds (σ i)) =
      ∑ i in (range size).filter (fun i => p (bonds i)), F (bonds i) := by
  simp only [sum_filter]
  exact σ.sum_comp (range size) (fun i => if p (bonds i) then F (bonds i) else 0)
    fun i hi => mem_range.2 (lt_of_not_le fun h => hi (hσ i h))

variable {pdata : ParticleData Scalar} {bonds : Nat → Bond} {k : Nat}

omit [Field Scalar] in
theorem sum_firstAt_perm {M : Type} [AddCommMonoid M] (hσ : ∀ i, size ≤ i → σ i = i)
    (F : Bond → M) :
    ∑ i in firstAt pdata (bonds ∘ σ) size k, F ((bonds ∘ σ) i) =
      ∑ i in firstAt pdata bonds size k, F (bonds i) :=
  sum_filter_perm hσ bonds (fun b => pdata.rtag b.tag0 = k) F

omit [Field Scalar] in
theorem sum_secondAt_perm {M : Type} [AddCommMonoid M] (hσ : ∀ i, size ≤ i → σ i = i)
    (F : Bond → M) :
    ∑ i in secondAt pdata (bonds ∘ σ) size k, F ((bonds ∘ σ) i) =
      ∑ i in secondAt pdata bonds size k, F (bonds i) :=
  sum_filter_perm hσ bonds (fun b => pdata.rtag b.tag1 = k) F

/-- Permuting the bond table changes neither whether `computeForces` throws nor, when it does
not, the arrays it returns: forces, energies and virials are sums over the bonds. -/
theorem computeForces_bond_order (eval : Evaluator Scalar param_type)
    (pdata : ParticleData Scalar) (minImage : Scalar3 Scalar → Scalar3 Scalar)
    (params : Nat → param_type) (compute_virial : Bool) (size : Nat) (bonds : Nat → Bond)
    (σ : Equiv.Perm Nat) (hσ : ∀ i, size ≤ i → σ i = i) :
    ((∃ fa, computeForces eval pdata minImage params compute_virial size bonds = .ok fa) ↔
        ∃ fa, computeForces eval pdata minImage params compute_virial size (bonds ∘ σ) =
          .ok fa) ∧
      ∀ fa fa', computeForces eval pdata minImage params compute_virial size bonds = .ok fa →
        computeForces eval pdata minImage params compute_virial size (bonds ∘ σ) = .ok fa' →
        fa = fa' := by
  have hσ' : ∀ i, size ≤ i → σ.symm i = i := fun i h => σ.symm_apply_eq.2 (hσ i h).symm
  refine ⟨?_, fun fa fa' h h' => ?_⟩
  · rw [computeForces_ok_iff, computeForces_ok_iff]
    exact ⟨fun hall i hi => hall _ (perm_lt hσ hi), fun hall i hi => by
      simpa using hall _ (perm_lt hσ' hi)⟩
  have hforce : fa.force = fa'.force := funext fun k => by
    by_cases hk : k < pdata.N
    · have hxyz : (fa.force k).xyz = (fa'.force k).xyz := by
        rw [computeForces_force_xyz h hk, computeForces_force_xyz h' hk, sum_firstAt_perm hσ,
          sum_secondAt_perm hσ]
      have hw : (fa.force k).w = (fa'.force k).w := by
        rw [computeForces_force_w h hk, computeForces_force_w h' hk,
          sum_firstAt_perm hσ fun b => (bondEval eval pdata minImage params b).bond_eng,
          sum_secondAt_perm hσ fun b => (bondEval eval pdata minImage params b).bond_eng]
      exact Scalar4.ext (congrArg Scalar3.x hxyz) (congrArg Scalar3.y hxyz)
        (congrArg Scalar3.z hxyz) hw
    · rw [computeForces_force_ghost h k (not_lt.1 hk),
        computeForces_force_ghost h' k (not_lt.1 hk)]
  have hvirial : fa.virial = fa'.virial := funext fun j => funext fun k => by
    by_cases hk : k < pdata.N
    · cases compute_virial
      · rw [computeForces_virial_false h, computeForces_virial_false h']
      · rw [computeForces_virial h hk, computeForces_virial h' hk,
          sum_firstAt_perm hσ fun b => (bondEval eval pdata minImage params b).force_divr *
            dyad (bondEval eval pdata minImage params b).dx j,
          sum_secondAt_perm hσ fun b => (bondEval eval pdata minImage params b).force_divr *
            dyad (bondEval eval pdata minImage params b).dx j]
    · rw [computeForces_virial_ghost h k (not_lt.1 hk),
        computeForces_virial_ghost h' k (not_lt.1 hk)]
  cases fa
  cases fa'
  simp only at hforce hvirial
  rw [hforce, hvirial]

theorem chain_reversed :
    ((∃ fa, computeForces harmonic chain id (fun _ => 1) true 2 chainBonds = .ok fa) ↔
        ∃ fa, computeForces harmonic chain id (fun _ => 1) true 2
          (chainBonds ∘ Equiv.swap 0 1) = .ok fa) ∧
      ∀ fa fa', computeForces harmonic chain id (fun _ => 1) true 2 chainBonds = .ok fa →
        computeForces harmonic chain id (fun _ => 1) true 2 (chainBonds ∘ Equiv.swap 0 1) =
          .ok fa' → fa = fa' :=
  computeForces_bond_order harmonic chain id (fun _ => 1) true 2 chainBonds (Equiv.swap 0 1)
    fun _ _ => Equiv.swap_apply_of_ne_of_ne (by omega) (by omega)

end Order

end PotentialBondSums
