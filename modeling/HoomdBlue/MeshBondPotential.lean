import HoomdBlue.MeshConstruction
import HoomdBlue.PotentialBondSums

/-! # The bond potential over a mesh

`PotentialBond(sysdef, meshdef)` loops over `meshdef->getMeshBondData()`. `MeshDefinition` is not
in the sources; its table is taken to be the one `MeshData` builds from a snapshot. Every member
of a mesh bond is a vertex, so with all vertices present only the evaluator can make it throw. -/
namespace MeshBondPotential

open HoomdMath MeshGroups MeshBondScan MeshConstruction PotentialBond PotentialBondSums

/-- Entry `i` of the mesh bond table as the bond loop reads it: `h_bonds.data[i].tag[0]`,
`tag[1]` and `h_typeval.data[i].type`. -/
def meshBondTable (md : MeshData) (i : Nat) : Bond :=
  let g := md.meshbond.groups.getD i default
  ⟨g.tag.tag0, g.tag.tag1, g.type⟩

theorem mem_of_mem_edges {t : TriangleMembers} {e : Sym2 Nat} (he : e ∈ t.edges) {x : Nat}
    (hx : x ∈ e) : x = t.tag0 ∨ x = t.tag1 ∨ x = t.tag2 := by
  simp only [TriangleMembers.edges, List.mem_cons, List.mem_singleton, List.not_mem_nil,
    or_false] at he
  rcases he with rfl | rfl | rfl <;> simp only [Sym2.mem_iff] at hx <;> omega

variable {snapshot : TriangleSnapshot}

/-- Both members of every bond the constructor builds are vertices of a triangle of the
snapshot. -/
theorem meshBondTable_vertex (hdist : ∀ t ∈ snapshot.groups, t.Distinct) {i : Nat}
    (hi : i < (MeshData.fromSnapshot snapshot).meshbond.getN) {x : Nat}
    (hx : (meshBondTable (MeshData.fromSnapshot snapshot) i).tag0 = x ∨
      (meshBondTable (MeshData.fromSnapshot snapshot) i).tag1 = x) :
    ∃ t ∈ snapshot.groups, x = t.tag0 ∨ x = t.tag1 ∨ x = t.tag2 := by
  have inv := fromSnapshot_inv snapshot hdist
  set b := (MeshData.fromSnapshot snapshot).meshbond.groups[i]
  have hb : b ∈ (MeshData.fromSnapshot snapshot).meshbond.groups := List.getElem_mem hi
  have htable :
      meshBondTable (MeshData.fromSnapshot snapshot) i = ⟨b.tag.tag0, b.tag.tag1, b.type⟩ := by
    simp only [meshBondTable, List.getD_eq_getElem?_getD, List.getElem?_eq_getElem hi,
      Option.getD_some, b]
  rw [htable] at hx
  have hedge := (adjacent_ne_nil_iff snapshot _).mp ((inv.mem _).mp (List.mem_map_of_mem _ hb))
  obtain ⟨t, ht, he⟩ := List.mem_flatMap.mp hedge
  exact ⟨t, ht, mem_of_mem_edges he ((mem_edge_iff b.tag x).mp hx)⟩

/-- The bond potential over the mesh a snapshot builds, with every vertex of its triangles
present: the run does not throw exactly when the evaluator accepts every mesh bond, and its only
exception is the evaluator's, never an incomplete bond. -/
theorem computeForces_meshBondTable (snapshot : TriangleSnapshot)
    (hdist : ∀ t ∈ snapshot.groups, t.Distinct) {Scalar param_type : Type} [Field Scalar]
    (eval : Evaluator Scalar param_type) (pdata : ParticleData Scalar)
    (minImage : Scalar3 Scalar → Scalar3 Scalar) (params : Nat → param_type)
    (compute_virial : Bool)
    (hpresent : ∀ t ∈ snapshot.groups, ∀ x, x = t.tag0 ∨ x = t.tag1 ∨ x = t.tag2 →
      pdata.rtag x < pdata.N + pdata.NGhosts) :
    let md := MeshData.fromSnapshot snapshot
    let run := computeForces eval pdata minImage params compute_virial md.meshbond.getN
      (meshBondTable md)
    ((∃ fa, run = .ok fa) ↔ ∀ i < md.meshbond.getN,
        (bondEval eval pdata minImage params (meshBondTable md i)).evaluated = true) ∧
      ∀ msg, run = .error msg → msg = "Error in bond calculation" := by
  intro md run
  have hmembers : ∀ i < md.meshbond.getN,
      pdata.rtag (meshBondTable md i).tag0 < pdata.N + pdata.NGhosts ∧
        pdata.rtag (meshBondTable md i).tag1 < pdata.N + pdata.NGhosts := fun i hi => by
    obtain ⟨t0, ht0, h0⟩ := meshBondTable_vertex hdist hi (.inl rfl)
    obtain ⟨t1, ht1, h1⟩ := meshBondTable_vertex hdist hi (.inr rfl)
    exact ⟨hpresent t0 ht0 _ h0, hpresent t1 ht1 _ h1⟩
  refine ⟨computeForces_ok_iff.trans ⟨fun h i hi => (h i hi).2.2,
    fun h i hi => ⟨(hmembers i hi).1, (hmembers i hi).2, h i hi⟩⟩, fun msg h => ?_⟩
  obtain ⟨i, hi, -, -, rfl⟩ := computeForces_error_iff.1 h
  simp only [bondError, hmembers i hi, and_self, if_true]

def quad : ParticleData ℚ := ⟨4, 0, fun k => ⟨k, 0, 0, 0⟩, fun _ => 1, fun _ => 0, id⟩

theorem sharedEdge_mesh_run :
    (∀ t ∈ sharedEdgeSnapshot.groups, t.Distinct) ∧
      ∃ fa, computeForces harmonic quad id (fun _ => 1) true
        (MeshData.fromSnapshot sharedEdgeSnapshot).meshbond.getN
        (meshBondTable (MeshData.fromSnapshot sharedEdgeSnapshot)) = .ok fa :=
  ⟨by decide, (computeForces_meshBondTable sharedEdgeSnapshot (by decide) harmonic quad id
    (fun _ => 1) true fun t ht x hx => by
      simp only [sharedEdgeSnapshot, List.mem_cons, List.mem_singleton, List.not_mem_nil,
        or_false] at ht
      simp only [quad, id]
      rcases ht with rfl | rfl <;> dsimp only at hx <;> omega).1.2 (by decide)⟩

end MeshBondPotential
