import HoomdBlue.PotentialBondGradient

/-! # Runs of the bond loop against other runs

Scalars are read as exact arithmetic. With MPI each rank runs the loop over its local particles,
its ghosts and the bonds at its local particles, wrapping separations with the global box: such a
rank gives its particles the serial results, and all ranks together the serial totals. Also:
reordered particle storage, the pressure tensor flag, and a table split in two. -/
namespace PotentialBondRefinement

open HoomdMath PotentialBond PotentialBondSums PotentialBondGradient Finset

variable {Scalar param_type : Type} [Field Scalar]

/-- The undivided system: bond members local, `rtag` injective on local tags. -/
structure Serial (G : ParticleData Scalar) (size : Nat) (bonds : Nat → Bond) : Prop where
  members_local : ∀ i < size, G.rtag (bonds i).tag0 < G.N ∧ G.rtag (bonds i).tag1 < G.N
  rtag_inj : ∀ t t', G.rtag t < G.N → G.rtag t = G.rtag t' → t = t'

/-- What a rank `P` holds of `G` when its ghosts carry `flags`: its table entry `j < n` is the
global bond `sel j`, once each and covering every bond at its local particles, whose members are
present with `G`'s requested fields and the minimum image they have in `G`. -/
structure Rank (G P : ParticleData Scalar) (minImage : Scalar3 Scalar → Scalar3 Scalar)
    (flags : CommFlags) (size : Nat) (bonds : Nat → Bond) (n : Nat) (sel : Nat → Nat) :
    Prop where
  sel_lt : ∀ j < n, sel j < size
  sel_inj : ∀ j < n, ∀ j' < n, sel j = sel j' → j = j'
  covers : ∀ i < size, P.rtag (bonds i).tag0 < P.N ∨ P.rtag (bonds i).tag1 < P.N →
    ∃ j < n, sel j = i
  present : ∀ j < n, P.rtag (bonds (sel j)).tag0 < P.N + P.NGhosts ∧
    P.rtag (bonds (sel j)).tag1 < P.N + P.NGhosts
  rtag_inj : ∀ t t', P.rtag t < P.N + P.NGhosts → P.rtag t = P.rtag t' → t = t'
  owned : ∀ t, P.rtag t < P.N → G.rtag t < G.N
  diameter : flags.diameter = true → ∀ t, P.rtag t < P.N + P.NGhosts →
    P.diameter (P.rtag t) = G.diameter (G.rtag t)
  charge : flags.charge = true → ∀ t, P.rtag t < P.N + P.NGhosts →
    P.charge (P.rtag t) = G.charge (G.rtag t)
  image : ∀ j < n,
    minImage (separation P (bonds (sel j))) = minImage (separation G (bonds (sel j)))

variable {eval : Evaluator Scalar param_type} {G P : ParticleData Scalar}
  {minImage : Scalar3 Scalar → Scalar3 Scalar} {params : Nat → param_type}
  {base : CommFlags} {size : Nat} {bonds : Nat → Bond} {n : Nat} {sel : Nat → Nat}

omit [Field Scalar] in
theorem requested_ite [Zero Scalar] {need flag : Bool} (hflag : need = true → flag = true)
    {a b : Scalar} (h : flag = true → a = b) :
    (if need then a else 0) = (if need then b else 0) := by
  cases need
  · rfl
  · rw [h (hflag rfl)]

/-- A held bond is evaluated on the rank exactly as in the undivided system, when the ghosts
carry the fields `getRequestedCommFlags` asks for. -/
theorem bondEval_rank (hR : Rank G P minImage (getRequestedCommFlags eval base) size bonds n sel)
    {j : Nat} (hj : j < n) :
    bondEval eval P minImage params (bonds (sel j)) =
      bondEval eval G minImage params (bonds (sel j)) := by
  obtain ⟨ha, hb⟩ := hR.present j hj
  have hd : ∀ t, P.rtag t < P.N + P.NGhosts →
      (if eval.needsDiameter then P.diameter (P.rtag t) else 0) =
        if eval.needsDiameter then G.diameter (G.rtag t) else 0 := fun t ht =>
    requested_ite (fun h => by simp [getRequestedCommFlags, h]) fun hf => hR.diameter hf t ht
  have hc : ∀ t, P.rtag t < P.N + P.NGhosts →
      (if eval.needsCharge then P.charge (P.rtag t) else 0) =
        if eval.needsCharge then G.charge (G.rtag t) else 0 := fun t ht =>
    requested_ite (fun h => by simp [getRequestedCommFlags, h]) fun hf => hR.charge hf t ht
  simp only [bondEval, evaluatorOutput, hR.image j hj, hd _ ha, hd _ hb, hc _ ha, hc _ hb]

omit [Field Scalar] in
theorem filter_rtag_eq {pdata : ParticleData Scalar} {M : Nat}
    (hinj : ∀ t t', pdata.rtag t < M → pdata.rtag t = pdata.rtag t' → t = t') {s : Finset Nat}
    {tagOf : Nat → Nat} (hs : ∀ i ∈ s, pdata.rtag (tagOf i) < M) (t : Nat) :
    s.filter (fun i => pdata.rtag (tagOf i) = pdata.rtag t) = s.filter (fun i => tagOf i = t) :=
  filter_congr fun i hi => ⟨hinj _ _ (hs i hi), congrArg pdata.rtag⟩

theorem sum_filter_sel {M : Type} [AddCommMonoid M] {flags : CommFlags}
    (hR : Rank G P minImage flags size bonds n sel)
    (p : Nat → Prop) [DecidablePred p] (F : Nat → M)
    (hp : ∀ i < size, p i → P.rtag (bonds i).tag0 < P.N ∨ P.rtag (bonds i).tag1 < P.N) :
    ∑ j in (range n).filter (fun j => p (sel j)), F (sel j) =
      ∑ i in (range size).filter p, F i := by
  refine sum_nbij sel ?_ ?_ ?_ fun _ _ => rfl
  · intro j hj
    obtain ⟨hj, hpj⟩ := mem_filter.1 hj
    exact mem_filter.2 ⟨mem_range.2 (hR.sel_lt j (mem_range.1 hj)), hpj⟩
  · intro j hj j' hj' he
    exact hR.sel_inj j (mem_range.1 (mem_filter.1 hj).1) j' (mem_range.1 (mem_filter.1 hj').1) he
  · intro i hi
    obtain ⟨hi, hpi⟩ := mem_filter.1 hi
    obtain ⟨j, hj, rfl⟩ := hR.covers i (mem_range.1 hi) (hp i (mem_range.1 hi) hpi)
    exact ⟨j, mem_filter.2 ⟨mem_range.2 hj, hpi⟩, rfl⟩

theorem sum_member_rank {M : Type} [AddCommMonoid M] (hS : Serial G size bonds)
    (hR : Rank G P minImage (getRequestedCommFlags eval base) size bonds n sel)
    (member : Bond → Nat)
    (hmember : ∀ b, member b = b.tag0 ∨ member b = b.tag1) (F : BondEval Scalar → M) {t : Nat}
    (ht : P.rtag t < P.N) :
    ∑ j in (range n).filter (fun j => P.rtag (member (bonds (sel j))) = P.rtag t),
        F (bondEval eval P minImage params (bonds (sel j))) =
      ∑ i in (range size).filter (fun i => G.rtag (member (bonds i)) = G.rtag t),
        F (bondEval eval G minImage params (bonds i)) := by
  have hpresent : ∀ j ∈ range n, P.rtag (member (bonds (sel j))) < P.N + P.NGhosts := fun j hj =>
    (hmember _).elim (fun h => h ▸ (hR.present j (mem_range.1 hj)).1)
      (fun h => h ▸ (hR.present j (mem_range.1 hj)).2)
  have hlocal : ∀ i ∈ range size, G.rtag (member (bonds i)) < G.N := fun i hi =>
    (hmember _).elim (fun h => h ▸ (hS.members_local i (mem_range.1 hi)).1)
      (fun h => h ▸ (hS.members_local i (mem_range.1 hi)).2)
  rw [filter_rtag_eq hR.rtag_inj hpresent, filter_rtag_eq hS.rtag_inj hlocal,
    ← sum_filter_sel hR (fun i => member (bonds i) = t) _ fun i _ hi => ?_]
  · exact sum_congr rfl fun j hj => by rw [bondEval_rank hR (mem_range.1 (mem_filter.1 hj).1)]
  · rcases hmember (bonds i) with h | h
    · exact .inl (h ▸ hi ▸ ht)
    · exact .inr (h ▸ hi ▸ ht)

theorem computeForces_rank_ok {compute_virial : Bool} {faG : ForceArrays Scalar}
    (hR : Rank G P minImage (getRequestedCommFlags eval base) size bonds n sel)
    (hG : computeForces eval G minImage params compute_virial size bonds = .ok faG) :
    ∃ faP, computeForces eval P minImage params compute_virial n (fun j => bonds (sel j)) =
      .ok faP := by
  refine computeForces_ok_iff.2 fun j hj => ⟨(hR.present j hj).1, (hR.present j hj).2, ?_⟩
  rw [bondEval_rank hR hj]
  exact (computeForces_ok_iff.1 ⟨faG, hG⟩ (sel j) (hR.sel_lt j hj)).2.2

section Particle

variable {compute_virial : Bool} {faG faP : ForceArrays Scalar} {t : Nat}
  (hS : Serial G size bonds)
  (hR : Rank G P minImage (getRequestedCommFlags eval base) size bonds n sel)
  (hG : computeForces eval G minImage params compute_virial size bonds = .ok faG)
  (hP : computeForces eval P minImage params compute_virial n (fun j => bonds (sel j)) = .ok faP)
  (ht : P.rtag t < P.N)
include hS hR hG hP ht

theorem force_rank : faP.force (P.rtag t) = faG.force (G.rtag t) := by
  have hxyz : (faP.force (P.rtag t)).xyz = (faG.force (G.rtag t)).xyz := by
    rw [computeForces_force_xyz hP ht, computeForces_force_xyz hG (hR.owned t ht)]
    exact congrArg₂ (· - ·)
      (sum_member_rank hS hR Bond.tag1 (fun _ => .inr rfl) (fun r => r.force_divr • r.dx) ht)
      (sum_member_rank hS hR Bond.tag0 (fun _ => .inl rfl) (fun r => r.force_divr • r.dx) ht)
  have hw : (faP.force (P.rtag t)).w = (faG.force (G.rtag t)).w := by
    rw [computeForces_force_w hP ht, computeForces_force_w hG (hR.owned t ht)]
    exact congrArg (1 / 2 * ·) (congrArg₂ (· + ·)
      (sum_member_rank hS hR Bond.tag0 (fun _ => .inl rfl) BondEval.bond_eng ht)
      (sum_member_rank hS hR Bond.tag1 (fun _ => .inr rfl) BondEval.bond_eng ht))
  ext
  exacts [congrArg Scalar3.x hxyz, congrArg Scalar3.y hxyz, congrArg Scalar3.z hxyz, hw]

theorem virial_rank (j : Fin 6) : faP.virial j (P.rtag t) = faG.virial j (G.rtag t) := by
  cases compute_virial
  · rw [computeForces_virial_false hP, computeForces_virial_false hG]
  · rw [computeForces_virial hP ht, computeForces_virial hG (hR.owned t ht)]
    exact congrArg (1 / 2 * ·) (congrArg₂ (· + ·)
      (sum_member_rank hS hR Bond.tag0 (fun _ => .inl rfl) (fun r => r.force_divr * dyad r.dx j) ht)
      (sum_member_rank hS hR Bond.tag1 (fun _ => .inr rfl) (fun r => r.force_divr * dyad r.dx j)
        ht))

end Particle

/-- In exact arithmetic, a rank that holds every bond at its local particles, with their members
present and carrying the fields `getRequestedCommFlags` asks for as in the undivided system,
completes its run whenever the serial run does, and each of its local particles receives the
force, energy and virial the serial run gives that particle. -/
theorem computeForces_rank_eq_serial (eval : Evaluator Scalar param_type)
    (G P : ParticleData Scalar) (minImage : Scalar3 Scalar → Scalar3 Scalar)
    (params : Nat → param_type) (compute_virial : Bool) (size : Nat) (bonds : Nat → Bond)
    (n : Nat) (sel : Nat → Nat) (base : CommFlags) (hS : Serial G size bonds)
    (hR : Rank G P minImage (getRequestedCommFlags eval base) size bonds n sel)
    (faG : ForceArrays Scalar)
    (hG : computeForces eval G minImage params compute_virial size bonds = .ok faG) :
    ∃ faP, computeForces eval P minImage params compute_virial n (fun j => bonds (sel j)) =
        .ok faP ∧
      ∀ t, P.rtag t < P.N → faP.force (P.rtag t) = faG.force (G.rtag t) ∧
        ∀ j, faP.virial j (P.rtag t) = faG.virial j (G.rtag t) := by
  obtain ⟨faP, hP⟩ := computeForces_rank_ok hR hG
  exact ⟨faP, hP, fun t ht => ⟨force_rank hS hR hG hP ht, virial_rank hS hR hG hP ht⟩⟩

def chainRank : ParticleData ℚ :=
  ⟨1, 1, fun k => if k = 0 then ⟨2, 0, 0, 0⟩ else ⟨1, 0, 0, 0⟩, fun _ => 0, fun _ => 0,
    fun t => if t = 2 then 0 else if t = 1 then 1 else 2⟩

theorem chain_serial : Serial chain 2 chainBonds := ⟨by decide, fun _ _ _ h => h⟩

theorem chainRank_rank :
    Rank chain chainRank id (getRequestedCommFlags harmonic ⟨false, false, false⟩) 2 chainBonds 1
      (fun _ => 1) :=
  ⟨by decide, by decide, by decide, by decide,
    fun t t' h e => by simp only [chainRank] at h e; split_ifs at h e <;> omega,
    fun t h => by simp only [chainRank, chain, id] at h ⊢; split_ifs at h <;> omega,
    fun h => absurd h (by decide), fun _ _ _ => rfl, fun _ _ => by
      ext <;> norm_num [separation, chainRank, chain, chainBonds, Scalar4.xyz, makeScalar3]⟩

theorem chainRank_eq_serial :
    ∃ faG faP, computeForces harmonic chain id (fun _ => 1) true 2 chainBonds = .ok faG ∧
      computeForces harmonic chainRank id (fun _ => 1) true 1 (fun _ => chainBonds 1) =
        .ok faP ∧
      faP.force 0 = faG.force 2 ∧ ∀ j, faP.virial j 0 = faG.virial j 2 :=
  let ⟨faP, hP, hagree⟩ := computeForces_rank_eq_serial harmonic chain chainRank id (fun _ => 1)
    true 2 chainBonds 1 (fun _ => 1) ⟨false, false, false⟩ chain_serial chainRank_rank _ rfl
  ⟨_, faP, rfl, hP, hagree 2 (by decide)⟩

/-! ### All ranks together -/

section Ranks

variable {R : Nat} {Ps : Nat → ParticleData Scalar} {tags : Nat → Nat → Nat}

omit [Field Scalar] in
theorem sum_ranks {M : Type} [AddCommMonoid M] (Q : Nat → Nat → M) (QG : Nat → M)
    (hown : ∀ ρ < R, ∀ k < (Ps ρ).N, G.rtag (tags ρ k) < G.N)
    (hinj : ∀ ρ < R, ∀ ρ' < R, ∀ k < (Ps ρ).N, ∀ k' < (Ps ρ').N,
      G.rtag (tags ρ k) = G.rtag (tags ρ' k') → ρ = ρ' ∧ k = k')
    (hsurj : ∀ g < G.N, ∃ ρ < R, ∃ k < (Ps ρ).N, G.rtag (tags ρ k) = g)
    (hQ : ∀ ρ < R, ∀ k < (Ps ρ).N, Q ρ k = QG (G.rtag (tags ρ k))) :
    ∑ ρ in range R, ∑ k in range (Ps ρ).N, Q ρ k = ∑ g in range G.N, QG g := by
  rw [sum_congr rfl fun ρ hρ => sum_congr rfl fun k hk =>
    hQ ρ (mem_range.1 hρ) k (mem_range.1 hk), sum_sigma']
  refine sum_nbij (fun x => G.rtag (tags x.1 x.2)) ?_ ?_ ?_ fun _ _ => rfl
  · intro x hx
    obtain ⟨hρ, hk⟩ := mem_sigma.1 hx
    exact mem_range.2 (hown x.1 (mem_range.1 hρ) x.2 (mem_range.1 hk))
  · rintro ⟨ρ, k⟩ hx ⟨ρ', k'⟩ hx' he
    obtain ⟨hρ, hk⟩ := mem_sigma.1 hx
    obtain ⟨hρ', hk'⟩ := mem_sigma.1 hx'
    rw [mem_range] at hρ hk hρ' hk'
    obtain ⟨rfl, rfl⟩ := hinj ρ hρ ρ' hρ' k hk k' hk' he
    rfl
  · intro g hg
    obtain ⟨ρ, hρ, k, hk, rfl⟩ := hsurj g (mem_range.1 hg)
    exact ⟨⟨ρ, k⟩, mem_sigma.2 ⟨mem_range.2 hρ, mem_range.2 hk⟩, rfl⟩

end Ranks

/-- In exact arithmetic, over a decomposition of the undivided system among `R` ranks, each
particle local on exactly one rank, the energies the ranks write add up to the total bond energy,
each bond counted once though two ranks may evaluate it; their forces add up to zero, and each
virial row adds up to the serial run's. -/
theorem computeForces_ranks_total [CharZero Scalar] (eval : Evaluator Scalar param_type)
    (G : ParticleData Scalar) (minImage : Scalar3 Scalar → Scalar3 Scalar)
    (params : Nat → param_type) (compute_virial : Bool) (size : Nat) (bonds : Nat → Bond)
    (base : CommFlags) (R : Nat) (Ps : Nat → ParticleData Scalar) (ns : Nat → Nat)
    (sels tags : Nat → Nat → Nat) (hS : Serial G size bonds)
    (hR : ∀ ρ < R, Rank G (Ps ρ) minImage (getRequestedCommFlags eval base) size bonds (ns ρ)
      (sels ρ))
    (htag : ∀ ρ < R, ∀ k < (Ps ρ).N, (Ps ρ).rtag (tags ρ k) = k)
    (hinj : ∀ ρ < R, ∀ ρ' < R, ∀ k < (Ps ρ).N, ∀ k' < (Ps ρ').N,
      G.rtag (tags ρ k) = G.rtag (tags ρ' k') → ρ = ρ' ∧ k = k')
    (hsurj : ∀ g < G.N, ∃ ρ < R, ∃ k < (Ps ρ).N, G.rtag (tags ρ k) = g)
    (faG : ForceArrays Scalar)
    (hG : computeForces eval G minImage params compute_virial size bonds = .ok faG)
    (faP : Nat → ForceArrays Scalar)
    (hP : ∀ ρ < R, computeForces eval (Ps ρ) minImage params compute_virial (ns ρ)
      (fun j => bonds (sels ρ j)) = .ok (faP ρ)) :
    ∑ ρ in range R, ∑ k in range (Ps ρ).N, ((faP ρ).force k).w =
        ∑ i in range size, (bondEval eval G minImage params (bonds i)).bond_eng ∧
      ∑ ρ in range R, ∑ k in range (Ps ρ).N, ((faP ρ).force k).xyz = 0 ∧
      ∀ j, ∑ ρ in range R, ∑ k in range (Ps ρ).N, (faP ρ).virial j k =
        ∑ g in range G.N, faG.virial j g := by
  have hlocal : ∀ ρ < R, ∀ k < (Ps ρ).N, (Ps ρ).rtag (tags ρ k) < (Ps ρ).N :=
    fun ρ hρ k hk => (htag ρ hρ k hk).symm ▸ hk
  have hown : ∀ ρ < R, ∀ k < (Ps ρ).N, G.rtag (tags ρ k) < G.N :=
    fun ρ hρ k hk => (hR ρ hρ).owned _ (hlocal ρ hρ k hk)
  have hforce : ∀ ρ < R, ∀ k < (Ps ρ).N, (faP ρ).force k = faG.force (G.rtag (tags ρ k)) :=
    fun ρ hρ k hk => by
      rw [← force_rank hS (hR ρ hρ) hG (hP ρ hρ) (hlocal ρ hρ k hk), htag ρ hρ k hk]
  refine ⟨?_, ?_, fun j => sum_ranks (fun ρ k => (faP ρ).virial j k) (faG.virial j) hown hinj
    hsurj fun ρ hρ k hk => ?_⟩
  · rw [sum_ranks (fun ρ k => ((faP ρ).force k).w) (fun g => (faG.force g).w) hown hinj hsurj
      fun ρ hρ k hk => congrArg Scalar4.w (hforce ρ hρ k hk)]
    exact computeForces_energy_total hG hS.members_local
  · rw [sum_ranks (fun ρ k => ((faP ρ).force k).xyz) (fun g => (faG.force g).xyz) hown hinj
      hsurj fun ρ hρ k hk => congrArg Scalar4.xyz (hforce ρ hρ k hk)]
    exact computeForces_force_total hG hS.members_local
  · rw [← virial_rank hS (hR ρ hρ) hG (hP ρ hρ) (hlocal ρ hρ k hk), htag ρ hρ k hk]

def chainRankA : ParticleData ℚ := { chain with N := 2, NGhosts := 1 }

theorem chainRankA_rank :
    Rank chain chainRankA id (getRequestedCommFlags harmonic ⟨false, false, false⟩) 2 chainBonds 2
      (fun j => j) :=
  ⟨by decide, by decide, by decide, by decide, fun _ _ _ h => h,
    fun t h => by simp only [chainRankA, chain, id] at h ⊢; omega,
    fun _ _ _ => rfl, fun _ _ _ => rfl, fun _ _ => rfl⟩

def chainRanks (ρ : Nat) : ParticleData ℚ := if ρ = 0 then chainRankA else chainRank

def chainRanksSize (ρ : Nat) : Nat := if ρ = 0 then 2 else 1

def chainRanksSel (ρ j : Nat) : Nat := if ρ = 0 then j else 1

def chainRanksTag (ρ k : Nat) : Nat := if ρ = 0 then k else 2

def chainRanksRun (ρ : Nat) : ForceArrays ℚ :=
  match computeForces harmonic (chainRanks ρ) id (fun _ => 1) true (chainRanksSize ρ)
      (fun j => chainBonds (chainRanksSel ρ j)) with
  | .ok fa => fa
  | .error _ => ForceArrays.zero

theorem chain_two_ranks_total :
    ∃ faG, computeForces harmonic chain id (fun _ => 1) true 2 chainBonds = .ok faG ∧
      (∀ ρ < 2, computeForces harmonic (chainRanks ρ) id (fun _ => 1) true (chainRanksSize ρ)
        (fun j => chainBonds (chainRanksSel ρ j)) = .ok (chainRanksRun ρ)) ∧
      ∑ ρ in range 2, ∑ k in range (chainRanks ρ).N, ((chainRanksRun ρ).force k).w =
        ∑ i in range 2, (bondEval harmonic chain id (fun _ => 1) (chainBonds i)).bond_eng :=
  have hP : ∀ ρ < 2, computeForces harmonic (chainRanks ρ) id (fun _ => 1) true
      (chainRanksSize ρ) (fun j => chainBonds (chainRanksSel ρ j)) = .ok (chainRanksRun ρ) :=
    fun ρ hρ => by interval_cases ρ <;> rfl
  ⟨_, rfl, hP, (computeForces_ranks_total harmonic chain id (fun _ => 1) true 2 chainBonds
    ⟨false, false, false⟩ 2 chainRanks chainRanksSize chainRanksSel chainRanksTag chain_serial
    (fun ρ hρ => by interval_cases ρ; exacts [chainRankA_rank, chainRank_rank])
    (by decide) (fun ρ hρ ρ' hρ' => by interval_cases ρ <;> interval_cases ρ' <;> decide)
    (by decide) _ rfl chainRanksRun hP).1⟩

/-! ### Reordered particle storage -/

/-- The run lemma of a simulation between two bond loops: when each iteration of the first on
`g fa` is the second's iteration on `fa` mapped by `g`, the whole run of the first is the second's
run mapped by `g`, the same exception included. -/
theorem computeForces_map {eval' : Evaluator Scalar param_type} {pdata pdata' : ParticleData Scalar}
    {minImage' : Scalar3 Scalar → Scalar3 Scalar} {params' : Nat → param_type}
    {compute_virial compute_virial' : Bool} (g : ForceArrays Scalar → ForceArrays Scalar)
    (h0 : g ForceArrays.zero = ForceArrays.zero)
    (hstep : ∀ fa i, computeBond eval' pdata' minImage' params' compute_virial' (g fa) (bonds i) =
      (computeBond eval pdata minImage params compute_virial fa (bonds i)).map g) :
    ∀ size, computeForces eval' pdata' minImage' params' compute_virial' size bonds =
      (computeForces eval pdata minImage params compute_virial size bonds).map g
  | 0 => by rw [computeForces_zero, computeForces_zero]; exact congrArg Except.ok h0.symm
  | n + 1 => by
    rw [computeForces_succ_eq, computeForces_succ_eq, computeForces_map g h0 hstep n]
    cases computeForces eval pdata minImage params compute_virial n bonds with
    | error e => rfl
    | ok fa => exact hstep fa n

/-- The particle arrays with the particle at index `k` moved to index `π k`, as a sort of the
particle storage leaves them: positions, diameters and charges move with the particle, and
`rtag` follows. -/
def relabel (pdata : ParticleData Scalar) (π : Equiv.Perm Nat) : ParticleData Scalar :=
  { pdata with
    pos := fun k => pdata.pos (π.symm k)
    diameter := fun k => pdata.diameter (π.symm k)
    charge := fun k => pdata.charge (π.symm k)
    rtag := fun t => π (pdata.rtag t) }

def relabelArrays (fa : ForceArrays Scalar) (π : Equiv.Perm Nat) : ForceArrays Scalar :=
  ⟨fun k => fa.force (π.symm k), fun j k => fa.virial j (π.symm k)⟩

section Relabel

variable {pdata : ParticleData Scalar} {π : Equiv.Perm Nat} {compute_virial : Bool}

theorem evalBond_relabel (param : param_type) (idx_a idx_b : Nat) :
    evalBond eval (relabel pdata π) minImage param (π idx_a) (π idx_b) =
      evalBond eval pdata minImage param idx_a idx_b := by
  simp only [evalBond, relabel, Equiv.symm_apply_apply]

theorem update_relabel (fa : ForceArrays Scalar) (idx : Nat)
    (f : Scalar4 Scalar → Scalar4 Scalar) (bond_virial : Fin 6 → Scalar) :
    (relabelArrays fa π).update compute_virial (π idx) f bond_virial =
      relabelArrays (fa.update compute_virial idx f bond_virial) π := by
  have key : ∀ {α : Type} (g : Nat → α) (v : α),
      Function.update (fun k => g (π.symm k)) (π idx) v =
        fun k => Function.update g idx v (π.symm k) := fun g v => by
    funext k
    simp only [Function.update_apply, Equiv.symm_apply_eq]
  cases compute_virial <;>
    simp only [ForceArrays.update, relabelArrays, Equiv.symm_apply_apply, key, if_true,
      Bool.false_eq_true, if_false]

theorem accumulate_relabel (hN : ∀ k, π k < pdata.N ↔ k < pdata.N) (idx_a idx_b : Nat)
    (r : BondEval Scalar) (fa : ForceArrays Scalar) :
    accumulate (relabel pdata π) compute_virial (π idx_a) (π idx_b) r (relabelArrays fa π) =
      relabelArrays (accumulate pdata compute_virial idx_a idx_b r fa) π := by
  simp only [accumulate, relabel, hN]
  split_ifs <;> simp only [update_relabel]

theorem computeBond_relabel (hN : ∀ k, π k < pdata.N ↔ k < pdata.N)
    (hpresent : ∀ k, π k < pdata.N + pdata.NGhosts ↔ k < pdata.N + pdata.NGhosts)
    (fa : ForceArrays Scalar) (bond : Bond) :
    computeBond eval (relabel pdata π) minImage params compute_virial (relabelArrays fa π) bond =
      (computeBond eval pdata minImage params compute_virial fa bond).map
        (relabelArrays · π) := by
  have hrtag : ∀ t, (relabel pdata π).rtag t = π (pdata.rtag t) := fun _ => rfl
  simp only [computeBond, hrtag, evalBond_relabel, accumulate_relabel hN]
  simp only [relabel, ge_iff_le, ← not_lt, hpresent]
  split_ifs <;> rfl

end Relabel

/-- Storing the particles in another order, local particles among the local ones and ghosts
among the ghosts, moves what `computeForces` returns in the same way, and leaves an exception as
it is: the force, energy and virial of a particle do not depend on where it is stored. Nor does
`energyDiff` at the particles' new indices. -/
theorem computeForces_relabel (eval : Evaluator Scalar param_type) (pdata : ParticleData Scalar)
    (minImage : Scalar3 Scalar → Scalar3 Scalar) (params : Nat → param_type)
    (compute_virial : Bool) (size : Nat) (bonds : Nat → Bond) (π : Equiv.Perm Nat)
    (hN : ∀ k, π k < pdata.N ↔ k < pdata.N)
    (hpresent : ∀ k, π k < pdata.N + pdata.NGhosts ↔ k < pdata.N + pdata.NGhosts) :
    computeForces eval (relabel pdata π) minImage params compute_virial size bonds =
        (computeForces eval pdata minImage params compute_virial size bonds).map
          (relabelArrays · π) ∧
      ∀ idx_a idx_b idx_c idx_d type_id,
        energyDiff eval (relabel pdata π) minImage params (π idx_a) (π idx_b) (π idx_c) (π idx_d)
            type_id =
          energyDiff eval pdata minImage params idx_a idx_b idx_c idx_d type_id :=
  ⟨computeForces_map _ rfl (fun fa i => computeBond_relabel hN hpresent fa (bonds i)) size,
    fun _ _ _ _ _ => by simp only [energyDiff, evalBond_relabel]⟩

theorem chain_relabelled :
    (∀ k, Equiv.swap 0 2 k < 3 ↔ k < 3) ∧
      computeForces harmonic (relabel chain (Equiv.swap 0 2)) id (fun _ => 1) true 2 chainBonds =
        (computeForces harmonic chain id (fun _ => 1) true 2 chainBonds).map
          (relabelArrays · (Equiv.swap 0 2)) :=
  have hswap : ∀ k, Equiv.swap 0 2 k < 3 ↔ k < 3 := fun k => by
    rw [Equiv.swap_apply_def]
    split_ifs <;> omega
  ⟨hswap, (computeForces_relabel harmonic chain id (fun _ => 1) true 2 chainBonds _ hswap
    hswap).1⟩

/-! ### The pressure tensor flag -/

def withoutVirial (fa : ForceArrays Scalar) : ForceArrays Scalar := ⟨fa.force, fun _ _ => 0⟩

section Flag

variable {pdata : ParticleData Scalar}

theorem accumulate_withoutVirial (idx_a idx_b : Nat) (r : BondEval Scalar)
    (fa : ForceArrays Scalar) :
    accumulate pdata false idx_a idx_b r (withoutVirial fa) =
      withoutVirial (accumulate pdata true idx_a idx_b r fa) := by
  simp only [accumulate]
  split_ifs <;> rfl

theorem computeBond_withoutVirial (fa : ForceArrays Scalar) (bond : Bond) :
    computeBond eval pdata minImage params false (withoutVirial fa) bond =
      (computeBond eval pdata minImage params true fa bond).map withoutVirial := by
  simp only [computeBond, accumulate_withoutVirial]
  split_ifs <;> rfl

end Flag

/-- Without the pressure tensor flag, `computeForces` throws exactly when it throws with the flag,
with the same exception, and otherwise returns the same forces and energies with the virial left
zero: the flag only adds the virial accumulation. -/
theorem computeForces_without_virial (eval : Evaluator Scalar param_type)
    (pdata : ParticleData Scalar) (minImage : Scalar3 Scalar → Scalar3 Scalar)
    (params : Nat → param_type) (size : Nat) (bonds : Nat → Bond) :
    computeForces eval pdata minImage params false size bonds =
      (computeForces eval pdata minImage params true size bonds).map withoutVirial :=
  computeForces_map _ rfl (fun fa i => computeBond_withoutVirial fa (bonds i)) size

/-! ### Splitting the bond table -/

omit [Field Scalar] in
theorem sum_filter_range_add {M : Type} [AddCommMonoid M] (p : Nat → Prop) [DecidablePred p]
    (F : Nat → M) (s1 s2 : Nat) :
    ∑ i in (range (s1 + s2)).filter p, F i =
      ∑ i in (range s1).filter p, F i +
        ∑ i in (range s2).filter (fun i => p (s1 + i)), F (s1 + i) := by
  simp only [sum_filter]
  exact sum_range_add _ s1 s2

omit [Field Scalar] in
theorem forall_lt_add_iff {P : Nat → Prop} {s1 s2 : Nat} :
    (∀ i < s1 + s2, P i) ↔ (∀ i < s1, P i) ∧ ∀ i < s2, P (s1 + i) := by
  refine ⟨fun h => ⟨fun i hi => h i (by omega), fun i hi => h (s1 + i) (by omega)⟩,
    fun ⟨h1, h2⟩ i hi => ?_⟩
  by_cases his : i < s1
  · exact h1 i his
  · simpa [Nat.add_sub_cancel' (not_lt.1 his)] using h2 (i - s1) (by omega)

/-- In exact arithmetic, a run over a table is the sum of the runs over its first `s1` bonds and
over the `s2` bonds after them: it completes exactly when both do, and then every force, energy
and virial entry is the sum of the two runs' entries. -/
theorem computeForces_split (eval : Evaluator Scalar param_type) (pdata : ParticleData Scalar)
    (minImage : Scalar3 Scalar → Scalar3 Scalar) (params : Nat → param_type)
    (compute_virial : Bool) (s1 s2 : Nat) (bonds : Nat → Bond) :
    let run := fun (size : Nat) (bonds : Nat → Bond) =>
      computeForces eval pdata minImage params compute_virial size bonds
    ((∃ fa, run (s1 + s2) bonds = .ok fa) ↔
        (∃ fa, run s1 bonds = .ok fa) ∧ ∃ fa, run s2 (fun i => bonds (s1 + i)) = .ok fa) ∧
      ∀ fa fa₁ fa₂, run (s1 + s2) bonds = .ok fa → run s1 bonds = .ok fa₁ →
        run s2 (fun i => bonds (s1 + i)) = .ok fa₂ → ∀ k,
          (fa.force k).xyz = (fa₁.force k).xyz + (fa₂.force k).xyz ∧
          (fa.force k).w = (fa₁.force k).w + (fa₂.force k).w ∧
          ∀ j, fa.virial j k = fa₁.virial j k + fa₂.virial j k := by
  intro run
  refine ⟨by simp only [run, computeForces_ok_iff, forall_lt_add_iff],
    fun fa fa₁ fa₂ h h₁ h₂ k => ?_⟩
  by_cases hk : k < pdata.N
  · refine ⟨?_, ?_, fun j => ?_⟩
    · rw [computeForces_force_xyz h hk, computeForces_force_xyz h₁ hk,
        computeForces_force_xyz h₂ hk]
      simp only [secondAt, firstAt, sum_filter_range_add]
      abel
    · rw [computeForces_force_w h hk, computeForces_force_w h₁ hk, computeForces_force_w h₂ hk]
      simp only [secondAt, firstAt, sum_filter_range_add]
      ring
    · cases compute_virial
      · simp only [computeForces_virial_false h, computeForces_virial_false h₁,
          computeForces_virial_false h₂, add_zero]
      · rw [computeForces_virial h hk, computeForces_virial h₁ hk, computeForces_virial h₂ hk]
        simp only [secondAt, firstAt, sum_filter_range_add]
        ring
  · have hk := not_lt.1 hk
    rw [computeForces_force_ghost h k hk, computeForces_force_ghost h₁ k hk,
      computeForces_force_ghost h₂ k hk]
    exact ⟨(add_zero _).symm, (add_zero _).symm, fun j => by
      rw [computeForces_virial_ghost h k hk, computeForces_virial_ghost h₁ k hk,
        computeForces_virial_ghost h₂ k hk, add_zero]⟩

theorem chain_split :
    ∃ fa fa₁ fa₂, computeForces harmonic chain id (fun _ => 1) true 2 chainBonds = .ok fa ∧
      computeForces harmonic chain id (fun _ => 1) true 1 chainBonds = .ok fa₁ ∧
      computeForces harmonic chain id (fun _ => 1) true 1 (fun i => chainBonds (1 + i)) =
        .ok fa₂ ∧
      (fa.force 1).xyz = (fa₁.force 1).xyz + (fa₂.force 1).xyz :=
  ⟨_, _, _, rfl, rfl, rfl,
    ((computeForces_split harmonic chain id (fun _ => 1) true 1 1 chainBonds).2 _ _ _ rfl rfl rfl
      1).1⟩

end PotentialBondRefinement
