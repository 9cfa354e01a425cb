import HoomdBlue.HoomdMath

/-! # Bond forces with an evaluator

`PotentialBond<evaluator, Bonds>` of `md/PotentialBond.h`: the host loop of `computeForces`,
`energyDiff` and the parameter table. Scalars are an arbitrary field, read as exact arithmetic;
the box enters through `minImage`, and `m_virial` is six rows indexed `[i][idx]`. -/
namespace PotentialBond

open HoomdMath

/-- `evaluator(rsq, params)`, `setDiameter`, `setCharge` and `evalForceAndEnergy` as one
function returning `(evaluated, force_divr, bond_eng)`. -/
structure Evaluator (Scalar param_type : Type) where
  needsDiameter : Bool
  needsCharge : Bool
  evalForceAndEnergy : Scalar → param_type → Scalar → Scalar → Scalar → Scalar →
    Bool × Scalar × Scalar

structure ParticleData (Scalar : Type) where
  N : Nat
  NGhosts : Nat
  pos : Nat → Scalar4 Scalar
  diameter : Nat → Scalar
  charge : Nat → Scalar
  rtag : Nat → Nat

structure Bond where
  tag0 : Nat
  tag1 : Nat
  type : Nat
  deriving DecidableEq, Repr

structure ForceArrays (Scalar : Type) where
  force : Nat → Scalar4 Scalar
  virial : Fin 6 → Nat → Scalar

structure BondEval (Scalar : Type) where
  dx : Scalar3 Scalar
  evaluated : Bool
  force_divr : Scalar
  bond_eng : Scalar

variable {Scalar param_type : Type} [Field Scalar]

/-- The pair evaluation `computeForces` and `energyDiff` share. -/
def evalBond (eval : Evaluator Scalar param_type) (pdata : ParticleData Scalar)
    (minImage : Scalar3 Scalar → Scalar3 Scalar) (param : param_type) (idx_a idx_b : Nat) :
    BondEval Scalar :=
  let posa := makeScalar3 (pdata.pos idx_a).x (pdata.pos idx_a).y (pdata.pos idx_a).z
  let posb := makeScalar3 (pdata.pos idx_b).x (pdata.pos idx_b).y (pdata.pos idx_b).z
  let diameter_a := if eval.needsDiameter then pdata.diameter idx_a else 0
  let diameter_b := if eval.needsDiameter then pdata.diameter idx_b else 0
  let charge_a := if eval.needsCharge then pdata.charge idx_a else 0
  let charge_b := if eval.needsCharge then pdata.charge idx_b else 0
  let dx := minImage (posb - posa)
  let rsq := dot dx dx
  let r := eval.evalForceAndEnergy rsq param diameter_a diameter_b charge_a charge_b
  ⟨dx, r.1, r.2.1, r.2.2⟩

def bondVirial (dx : Scalar3 Scalar) (force_divr : Scalar) : Fin 6 → Scalar :=
  let force_div2r := 1 / 2 * force_divr
  ![dx.x * dx.x * force_div2r, dx.x * dx.y * force_div2r, dx.x * dx.z * force_div2r,
    dx.y * dx.y * force_div2r, dx.y * dx.z * force_div2r, dx.z * dx.z * force_div2r]

def ForceArrays.update (fa : ForceArrays Scalar) (compute_virial : Bool) (idx : Nat)
    (f : Scalar4 Scalar → Scalar4 Scalar) (bond_virial : Fin 6 → Scalar) :
    ForceArrays Scalar where
  force := Function.update fa.force idx (f (fa.force idx))
  virial := if compute_virial then
      fun i => Function.update (fa.virial i) idx (fa.virial i idx + bond_virial i)
    else fa.virial

def accumulate (pdata : ParticleData Scalar) (compute_virial : Bool) (idx_a idx_b : Nat)
    (r : BondEval Scalar) (fa : ForceArrays Scalar) : ForceArrays Scalar :=
  let dx := r.dx
  let force_divr := r.force_divr
  let bond_eng := r.bond_eng * (1 / 2)
  let bond_virial := bondVirial dx force_divr
  let fa := if idx_b < pdata.N then
      fa.update compute_virial idx_b (fun f => ⟨f.x + force_divr * dx.x, f.y + force_divr * dx.y,
        f.z + force_divr * dx.z, f.w + bond_eng⟩) bond_virial
    else fa
  if idx_a < pdata.N then
    fa.update compute_virial idx_a (fun f => ⟨f.x - force_divr * dx.x, f.y - force_divr * dx.y,
      f.z - force_divr * dx.z, f.w + bond_eng⟩) bond_virial
  else fa

def computeBond (eval : Evaluator Scalar param_type) (pdata : ParticleData Scalar)
    (minImage : Scalar3 Scalar → Scalar3 Scalar) (params : Nat → param_type)
    (compute_virial : Bool) (fa : ForceArrays Scalar) (bond : Bond) :
    Except String (ForceArrays Scalar) :=
  let max_local := pdata.N + pdata.NGhosts
  let idx_a := pdata.rtag bond.tag0
  let idx_b := pdata.rtag bond.tag1
  if idx_a ≥ max_local ∨ idx_b ≥ max_local then
    .error ("Error: bond " ++ toString bond.tag0 ++ " " ++ toString bond.tag1 ++ " is incomplete.")
  else
    let r := evalBond eval pdata minImage (params bond.type) idx_a idx_b
    if r.evaluated then .ok (accumulate pdata compute_virial idx_a idx_b r fa)
    else .error "Error in bond calculation"

def ForceArrays.zero : ForceArrays Scalar := ⟨fun _ => ⟨0, 0, 0, 0⟩, fun _ _ => 0⟩

/-- The loop over the `size` bonds of the table, from the zeroed arrays (`memset`). -/
def computeForces (eval : Evaluator Scalar param_type) (pdata : ParticleData Scalar)
    (minImage : Scalar3 Scalar → Scalar3 Scalar) (params : Nat → param_type)
    (compute_virial : Bool) (size : Nat) (bonds : Nat → Bond) :
    Except String (ForceArrays Scalar) :=
  (List.range size).foldlM (fun fa i => computeBond eval pdata minImage params compute_virial fa
    (bonds i)) ForceArrays.zero

/-- `DBL_MAX = (2^53 - 1) * 2^971`. -/
def dblMax : Scalar := (((2 ^ 53 - 1) * 2 ^ 971 : Nat) : Scalar)

def energyDiff (eval : Evaluator Scalar param_type) (pdata : ParticleData Scalar)
    (minImage : Scalar3 Scalar → Scalar3 Scalar) (params : Nat → param_type)
    (idx_a idx_b idx_c idx_d type_id : Nat) : Scalar :=
  let r1 := evalBond eval pdata minImage (params type_id) idx_a idx_b
  let r2 := evalBond eval pdata minImage (params type_id) idx_c idx_d
  if r2.evaluated then r2.bond_eng - r1.bond_eng else dblMax

def validateType (n_types type : Nat) (action : String) : Except String Unit :=
  if type ≥ n_types then
    .error ("Invalid bond type specified." ++ "Error " ++ action ++ " in PotentialBond")
  else .ok ()

def setParams (params : Nat → param_type) (n_types type : Nat) (param : param_type) :
    Except String (Nat → param_type) := do
  validateType n_types type "setting params"
  pure (Function.update params type param)

def getParams (params : Nat → param_type) (n_types type : Nat) : Except String param_type := do
  validateType n_types type "getting params"
  pure (params type)

structure CommFlags where
  tag : Bool
  charge : Bool
  diameter : Bool
  deriving DecidableEq, Repr

/-- The tag always, charges and diameters when the evaluator needs them, joined with the flags
`ForceCompute` requests (`base`). -/
def getRequestedCommFlags (eval : Evaluator Scalar param_type) (base : CommFlags) : CommFlags :=
  let flags : CommFlags := ⟨true, eval.needsCharge, eval.needsDiameter⟩
  ⟨flags.tag || base.tag, flags.charge || base.charge, flags.diameter || base.diameter⟩

/-- The evaluation of a bond reads only positions and the fields whose communication is
requested: two particle arrays that agree there give the same evaluation. -/
theorem evalBond_reads_requested (eval : Evaluator Scalar param_type) (base : CommFlags)
    (pdata pdata' : ParticleData Scalar) (minImage : Scalar3 Scalar → Scalar3 Scalar)
    (param : param_type) (idx_a idx_b : Nat) (hpos : ∀ k, pdata.pos k = pdata'.pos k)
    (hdiam : (getRequestedCommFlags eval base).diameter = true →
      ∀ k, pdata.diameter k = pdata'.diameter k)
    (hcharge : (getRequestedCommFlags eval base).charge = true →
      ∀ k, pdata.charge k = pdata'.charge k) :
    evalBond eval pdata minImage param idx_a idx_b =
      evalBond eval pdata' minImage param idx_a idx_b := by
  have hd : eval.needsDiameter = true → ∀ k, pdata.diameter k = pdata'.diameter k :=
    fun h => hdiam (by simp [getRequestedCommFlags, h])
  have hc : eval.needsCharge = true → ∀ k, pdata.charge k = pdata'.charge k :=
    fun h => hcharge (by simp [getRequestedCommFlags, h])
  simp only [evalBond, hpos]
  cases hnd : eval.needsDiameter <;> cases hnc : eval.needsCharge <;>
    simp [hd, hc, hnd, hnc]

theorem uncharged_bond_ignores_charges :
    let eval : Evaluator ℚ ℚ := ⟨false, false, fun rsq K _ _ _ _ => (true, -K, K * rsq / 2)⟩
    let pdata : ParticleData ℚ :=
      ⟨2, 0, fun k => ⟨k, 0, 0, 0⟩, fun _ => 1, fun _ => 0, id⟩
    evalBond eval pdata id 1 0 1 = evalBond eval { pdata with charge := fun _ => 5 } id 1 0 1 :=
  evalBond_reads_requested _ ⟨false, false, false⟩ _ _ id 1 0 1 (fun _ => rfl)
    (fun h => absurd h (by decide)) (fun h => absurd h (by decide))

end PotentialBond
