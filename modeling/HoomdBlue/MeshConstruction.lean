import HoomdBlue.MeshBondScan

/-! # The mesh built from a triangle snapshot

Over every snapshot whose triangles have three distinct vertices, the constructor builds one
bond per distinct edge, each knowing the first and the last of its triangles, and one triangle
per snapshot group pointing at its three bonds. The loop invariant `ConstructInv` holds after
every prefix of the triangles; `StepSpec` says once what one iteration does. -/
namespace MeshConstruction

open MeshGroups MeshBondScan

/-- The bond `addMissingBond` appends: none when the search found the edge. -/
def missingBond (found : Option Nat) (b : BondedGroup BondMembers) :
    List (BondedGroup BondMembers) :=
  match found with
  | some _ => []
  | none => [b]

theorem addMissingBond_eq (found : Option Nat) (b : BondedGroup BondMembers)
    (bonds : MeshGroupData BondMembers) (size : Nat) :
    addMissingBond found b bonds size =
      (⟨bonds.groups ++ missingBond found b⟩, found.getD size,
        size + (missingBond found b).length) := by
  cases found <;> simp [addMissingBond, missingBond, MeshGroupData.addBondedGroup]

theorem tableEdges_missingBond {L : List (Sym2 Nat)} {x : Option Nat} {b : BondedGroup BondMembers}
    (h : FoundAt L b.tag.edge x) :
    tableEdges (missingBond x b) = [b.tag.edge].filter (· ∉ L) := by
  cases x with
  | none => simp [missingBond, tableEdges, List.filter_cons, show b.tag.edge ∉ L from h]
  | some i => simp [missingBond, tableEdges, List.getElem?_mem (show L[i]? = _ from h)]

theorem getElem?_missingBond {L : List (Sym2 Nat)} {x : Option Nat} {b : BondedGroup BondMembers}
    (h : FoundAt L b.tag.edge x) (M : List (Sym2 Nat)) :
    (L ++ tableEdges (missingBond x b) ++ M)[x.getD L.length]? = some b.tag.edge := by
  cases x with
  | none =>
    rw [missingBond, tableEdges, Option.getD_none, List.append_assoc,
      List.getElem?_append_right (le_refl _)]
    simp
  | some i =>
    have hi : i < L.length := (List.getElem?_eq_some_iff.mp h).1
    simpa [List.getElem?_append_left hi] using h

theorem mem_missingBond {x : Option Nat} {b b' : BondedGroup BondMembers}
    (h : b ∈ missingBond x b') : b = b' := by
  cases x <;> simp_all [missingBond]

variable (snapshot : TriangleSnapshot)

def tri (g : Nat) : TriangleMembers := snapshot.groups.getD g default

/-- What one iteration of the constructor does to the two tables. -/
structure StepSpec (t : TriangleMembers) (type n : Nat) (md md' : MeshData) : Prop where
  bonds : ∃ M, md'.meshbond.groups = md.meshbond.groups.map (markIf t n) ++ M ∧
    tableEdges M = t.edges.filter (· ∉ tableEdges md.meshbond.groups) ∧
    ∀ b ∈ M, b.type = type ∧ b.tag.tag2 = n ∧ b.tag.tag3 = unsignedMinusOne
  triangle : ∃ aa bb cc, md'.meshtriangle.groups =
      md.meshtriangle.groups ++ [meshTriangle type t.tag0 t.tag1 t.tag2 aa bb cc] ∧
    (tableEdges md'.meshbond.groups)[aa]? = some s(t.tag0, t.tag1) ∧
    (tableEdges md'.meshbond.groups)[bb]? = some s(t.tag0, t.tag2) ∧
    (tableEdges md'.meshbond.groups)[cc]? = some s(t.tag1, t.tag2)

theorem not_mem_tableEdges_missingBond {x : Option Nat} {b : BondedGroup BondMembers}
    {e : Sym2 Nat} (hne : e ≠ b.tag.edge) : e ∉ tableEdges (missingBond x b) := by
  cases x <;> simp [missingBond, tableEdges, hne]

/-- The inversion lemma of one iteration, read off the code through `scan_spec`. -/
theorem addTriangle_spec (md : MeshData) (n : Nat) (ht : (tri snapshot n).Distinct)
    (hnd : (tableEdges md.meshbond.groups).Nodup) :
    StepSpec (tri snapshot n) (snapshot.type_id.getD n 0) n md (md.addTriangle snapshot n) := by
  obtain ⟨hgroups, haa, hbb, hcc⟩ := scan_spec n ht md.meshbond hnd
  simp only [MeshData.addTriangle, addMissingBond_eq,
    show snapshot.groups.getD n default = tri snapshot n from rfl]
  generalize (List.range md.meshbond.getN).foldl _ _ = st at hgroups haa hbb hcc ⊢
  set t := tri snapshot n
  set type := snapshot.type_id.getD n 0
  set L := tableEdges md.meshbond.groups
  set m1 := missingBond st.aa (meshBond type t.tag0 t.tag1 n unsignedMinusOne)
  set m2 := missingBond st.bb (meshBond type t.tag0 t.tag2 n unsignedMinusOne)
  set m3 := missingBond st.cc (meshBond type t.tag1 t.tag2 n unsignedMinusOne)
  have h1 : tableEdges m1 = [s(t.tag0, t.tag1)].filter (· ∉ L) := tableEdges_missingBond haa
  have h2 : tableEdges m2 = [s(t.tag0, t.tag2)].filter (· ∉ L) := tableEdges_missingBond hbb
  have h3 : tableEdges m3 = [s(t.tag1, t.tag2)].filter (· ∉ L) := tableEdges_missingBond hcc
  have hE : tableEdges (st.bonds.groups ++ m1 ++ m2 ++ m3) =
      L ++ tableEdges m1 ++ tableEdges m2 ++ tableEdges m3 := by
    simp [hgroups, L]
  have hlen : md.meshbond.getN = L.length := by simp [L, MeshGroupData.getN]
  obtain ⟨hab_ac, hab_bc, hac_bc⟩ := edges_ne ht
  refine ⟨⟨m1 ++ m2 ++ m3, by simp [hgroups], ?_, ?_⟩, ⟨_, _, _, rfl, ?_, ?_, ?_⟩⟩
  · simp only [tableEdges_append, h1, h2, h3, ← List.filter_append]
    rfl
  · intro b hb
    simp only [List.mem_append] at hb
    rcases hb with (hb | hb) | hb <;> rw [mem_missingBond hb] <;> exact ⟨rfl, rfl, rfl⟩
  · rw [hE, hlen, List.append_assoc (L ++ _)]
    exact getElem?_missingBond haa _
  · rw [hE, hlen, ← length_tableEdges m1, ← List.length_append]
    exact getElem?_missingBond (hbb.append (not_mem_tableEdges_missingBond (b := meshBond type
      t.tag0 t.tag1 n unsignedMinusOne) hab_ac.symm)) _
  · rw [hE, hlen, ← length_tableEdges m1, ← length_tableEdges m2, ← List.length_append,
      ← List.length_append, ← List.append_nil (_ ++ tableEdges m3)]
    have hc := hcc.append (M := tableEdges m1 ++ tableEdges m2) (by
      simp only [List.mem_append, not_or]
      exact ⟨not_mem_tableEdges_missingBond hab_bc.symm,
        not_mem_tableEdges_missingBond hac_bc.symm⟩)
    rw [← List.append_assoc] at hc
    exact getElem?_missingBond hc _

/-! ## The loop invariant -/

/-- Indices below `n` of the triangles holding edge `e`, ascending. -/
def adjacentUpTo (n : Nat) (e : Sym2 Nat) : List Nat :=
  (List.range n).filter fun g => e ∈ (tri snapshot g).edges

/-- The triangle slots of a bond whose edge lies on the triangles `adj`: the first in
`tag[2]`, the last later one in `tag[3]`, or `-1` when there is no later one. -/
def SlotsFor (adj : List Nat) (m : BondMembers) : Prop :=
  adj.head? = some m.tag2 ∧ m.tag3 = adj.tail.getLast?.getD unsignedMinusOne

/-- Triangle `g` is stored at index `g` with the snapshot's type and vertices, and bond
indices pointing at bonds on its edges `{a,b}`, `{a,c}`, `{b,c}`. -/
def TriangleStored (md : MeshData) (g : Nat) : Prop :=
  ∃ tr ∈ md.meshtriangle.groups[g]?, tr.type = snapshot.type_id.getD g 0 ∧
    tr.tag.tag0 = (tri snapshot g).tag0 ∧ tr.tag.tag1 = (tri snapshot g).tag1 ∧
    tr.tag.tag2 = (tri snapshot g).tag2 ∧
    (tableEdges md.meshbond.groups)[tr.tag.tag3]? =
      some s((tri snapshot g).tag0, (tri snapshot g).tag1) ∧
    (tableEdges md.meshbond.groups)[tr.tag.tag4]? =
      some s((tri snapshot g).tag0, (tri snapshot g).tag2) ∧
    (tableEdges md.meshbond.groups)[tr.tag.tag5]? =
      some s((tri snapshot g).tag1, (tri snapshot g).tag2)

/-- The tables after the first `n` triangles. -/
structure ConstructInv (n : Nat) (md : MeshData) : Prop where
  nodup : (tableEdges md.meshbond.groups).Nodup
  mem : ∀ e, e ∈ tableEdges md.meshbond.groups ↔ adjacentUpTo snapshot n e ≠ []
  slots : ∀ b ∈ md.meshbond.groups, SlotsFor (adjacentUpTo snapshot n b.tag.edge) b.tag
  type : ∀ b ∈ md.meshbond.groups, b.type = snapshot.type_id.getD b.tag.tag2 0
  length : md.meshtriangle.groups.length = n
  stored : ∀ g < n, TriangleStored snapshot md g

theorem adjacentUpTo_succ (n : Nat) (e : Sym2 Nat) :
    adjacentUpTo snapshot (n + 1) e =
      adjacentUpTo snapshot n e ++ if e ∈ (tri snapshot n).edges then [n] else [] := by
  simp only [adjacentUpTo, List.range_succ, List.filter_append]
  split <;> simp [*]

theorem SlotsFor.snoc {adj : List Nat} {m : BondMembers} (h : SlotsFor adj m) (hne : adj ≠ [])
    (n : Nat) : SlotsFor (adj ++ [n]) { m with tag3 := n } := by
  obtain ⟨x, xs, rfl⟩ := List.exists_cons_of_ne_nil hne
  exact ⟨h.1, by simp⟩

theorem getElem?_append_of_eq_some {α : Type} {l : List α} {i : Nat} {a : α} (h : l[i]? = some a)
    (l' : List α) : (l ++ l')[i]? = some a := by
  rw [List.getElem?_append_left (List.getElem?_eq_some_iff.mp h).1, h]

theorem TriangleStored.append {md md' : MeshData} {g : Nat} (h : TriangleStored snapshot md g)
    {T : List (BondedGroup MeshTriangleMembers)} {E : List (Sym2 Nat)}
    (ht : md'.meshtriangle.groups = md.meshtriangle.groups ++ T)
    (hE : tableEdges md'.meshbond.groups = tableEdges md.meshbond.groups ++ E) :
    TriangleStored snapshot md' g := by
  obtain ⟨tr, htr, h0, h1, h2, h3, h4, h5, h6⟩ := h
  exact ⟨tr, by rw [ht]; exact getElem?_append_of_eq_some htr T, h0, h1, h2, h3,
    by rw [hE]; exact getElem?_append_of_eq_some h4 E,
    by rw [hE]; exact getElem?_append_of_eq_some h5 E,
    by rw [hE]; exact getElem?_append_of_eq_some h6 E⟩

/-- One triangle keeps the invariant: its edges already present get `tag[3] = n`, the others
are appended with `tag[2] = n` and `tag[3] = -1`, and the triangle points at all three. -/
theorem ConstructInv.succ {n : Nat} {md : MeshData} (inv : ConstructInv snapshot n md)
    (ht : (tri snapshot n).Distinct) :
    ConstructInv snapshot (n + 1) (md.addTriangle snapshot n) := by
  obtain ⟨⟨M, hgroups, hedges, hnew⟩, ⟨aa, bb, cc, htri, haa, hbb, hcc⟩⟩ :=
    addTriangle_spec snapshot md n ht inv.nodup
  set t := tri snapshot n
  set L := tableEdges md.meshbond.groups
  have hE : tableEdges (md.addTriangle snapshot n).meshbond.groups =
      L ++ t.edges.filter (· ∉ L) := by
    rw [hgroups, tableEdges_append, tableEdges_map_markIf, hedges]
  have hoff : ∀ b ∈ M, b.tag.edge ∈ t.edges ∧ adjacentUpTo snapshot n b.tag.edge = [] := by
    intro b hb
    have hm : b.tag.edge ∈ t.edges.filter (· ∉ L) := hedges ▸ List.mem_map_of_mem _ hb
    rw [List.mem_filter, decide_eq_true_iff] at hm
    exact ⟨hm.1, by_contra fun h => hm.2 ((inv.mem _).mpr h)⟩
  refine ⟨?_, ?_, ?_, ?_, ?_, ?_⟩
  · rw [hE]
    exact inv.nodup.append ((edges_nodup ht).filter _)
      fun e h1 h2 => by simp only [List.mem_filter, decide_eq_true_iff] at h2; exact h2.2 h1
  · intro e
    rw [hE, adjacentUpTo_succ]
    by_cases he : e ∈ t.edges <;> simp [he, List.mem_filter]
    · exact em _
    · exact inv.mem e
  · intro b hb
    rw [hgroups, List.mem_append, List.mem_map] at hb
    rcases hb with ⟨b0, hb0, rfl⟩ | hb
    · have hslot := inv.slots b0 hb0
      have hne : adjacentUpTo snapshot n b0.tag.edge ≠ [] :=
        (inv.mem _).mp (List.mem_map_of_mem _ hb0)
      rw [markIf_edge, adjacentUpTo_succ]
      by_cases hon : b0.tag.edge ∈ t.edges
      · simp only [markIf, hon, if_true]; exact hslot.snoc hne n
      · simp only [markIf, hon, if_false, List.append_nil]; exact hslot
    · obtain ⟨-, h2, h3⟩ := hnew b hb
      obtain ⟨hon, hempty⟩ := hoff b hb
      rw [adjacentUpTo_succ, hempty, if_pos hon]
      exact ⟨by simp [h2], by simp [h3]⟩
  · intro b hb
    rw [hgroups, List.mem_append, List.mem_map] at hb
    rcases hb with ⟨b0, hb0, rfl⟩ | hb
    · simpa using inv.type b0 hb0
    · obtain ⟨htype, h2, -⟩ := hnew b hb
      rw [htype, h2]
  · simp [htri, inv.length]
  · intro g hg
    rcases Nat.lt_succ_iff_lt_or_eq.mp hg with hg | rfl
    · exact (inv.stored g hg).append snapshot htri hE
    · refine ⟨meshTriangle (snapshot.type_id.getD g 0) t.tag0 t.tag1 t.tag2 aa bb cc, ?_, rfl,
        rfl, rfl, rfl, haa, hbb, hcc⟩
      rw [htri, List.getElem?_append_right (le_of_eq inv.length)]
      simp [inv.length]

theorem tri_mem {g : Nat} (hg : g < snapshot.groups.length) :
    tri snapshot g ∈ snapshot.groups := by
  simp [tri, List.getD_eq_getElem?_getD, List.getElem?_eq_getElem hg]

theorem constructInv_zero : ConstructInv snapshot 0 ⟨⟨[]⟩, ⟨[]⟩⟩ :=
  ⟨List.nodup_nil, by simp [tableEdges, adjacentUpTo], by simp, by simp, rfl, by simp⟩

theorem constructInv_range (hdist : ∀ t ∈ snapshot.groups, t.Distinct) :
    ∀ n ≤ snapshot.groups.length, ConstructInv snapshot n
      ((List.range n).foldl (MeshData.addTriangle snapshot) ⟨⟨[]⟩, ⟨[]⟩⟩)
  | 0, _ => constructInv_zero snapshot
  | n + 1, hn => by
    rw [List.range_succ, List.foldl_append]
    exact (constructInv_range hdist n (by omega)).succ snapshot (hdist _ (tri_mem snapshot hn))

theorem fromSnapshot_inv (hdist : ∀ t ∈ snapshot.groups, t.Distinct) :
    ConstructInv snapshot snapshot.groups.length (MeshData.fromSnapshot snapshot) :=
  constructInv_range snapshot hdist _ le_rfl

def adjacent (e : Sym2 Nat) : List Nat := adjacentUpTo snapshot snapshot.groups.length e

theorem adjacent_ne_nil_iff (e : Sym2 Nat) :
    adjacent snapshot e ≠ [] ↔ e ∈ snapshot.groups.flatMap TriangleMembers.edges := by
  rw [adjacent, adjacentUpTo, ne_eq, List.filter_eq_nil_iff, List.mem_flatMap]
  simp only [List.mem_range, decide_eq_true_eq, not_forall, not_not, exists_prop]
  constructor
  · rintro ⟨g, hg, he⟩
    exact ⟨_, tri_mem snapshot hg, he⟩
  · rintro ⟨t, ht, he⟩
    obtain ⟨g, hg, rfl⟩ := List.mem_iff_getElem.mp ht
    exact ⟨g, hg, by
      simpa [tri, List.getD_eq_getElem?_getD, List.getElem?_eq_getElem hg] using he⟩

theorem SlotsFor.of_length_le_two {adj : List Nat} {m : BondMembers} (h : SlotsFor adj m)
    (h2 : adj.length ≤ 2) :
    adj = [m.tag2] ∧ m.tag3 = unsignedMinusOne ∨ adj = [m.tag2, m.tag3] := by
  obtain ⟨hhead, hlast⟩ := h
  match adj, h2 with
  | [x], _ => simp_all
  | [x, y], _ => simp_all

/-! ## The built mesh -/

theorem length_filter_edge_eq {bonds : List (BondedGroup BondMembers)} {e : Sym2 Nat}
    (hnd : (tableEdges bonds).Nodup) (he : e ∈ tableEdges bonds) :
    (bonds.filter fun b => s(b.tag.tag0, b.tag.tag1) = e).length = 1 := by
  have := List.count_eq_one_of_mem hnd he
  rw [List.count_eq_countP, List.countP_eq_length_filter, tableEdges, List.filter_map,
    List.length_map] at this
  simpa [Function.comp_def, BondMembers.edge] using this

/-- No edge is lost and none is duplicated: each edge of a triangle has exactly one bond,
every bond is such an edge, and there are as many bonds as distinct edges. -/
theorem fromSnapshot_bond_edges (snapshot : TriangleSnapshot)
    (hdist : ∀ t ∈ snapshot.groups, t.Distinct) :
    let bonds := (MeshData.fromSnapshot snapshot).meshbond.groups
    let edges := snapshot.groups.flatMap TriangleMembers.edges
    (∀ e ∈ edges, (bonds.filter fun b => s(b.tag.tag0, b.tag.tag1) = e).length = 1) ∧
      (∀ b ∈ bonds, s(b.tag.tag0, b.tag.tag1) ∈ edges) ∧
      bonds.length = edges.dedup.length := by
  have inv := fromSnapshot_inv snapshot hdist
  have hmem : ∀ e, e ∈ tableEdges (MeshData.fromSnapshot snapshot).meshbond.groups ↔
      e ∈ snapshot.groups.flatMap TriangleMembers.edges := fun e =>
    (inv.mem e).trans (adjacent_ne_nil_iff snapshot e)
  refine ⟨fun e he => length_filter_edge_eq inv.nodup ((hmem e).mpr he),
    fun b hb => (hmem _).mp (List.mem_map_of_mem _ hb), ?_⟩
  rw [← length_tableEdges]
  exact ((List.perm_ext_iff_of_nodup inv.nodup (List.nodup_dedup _)).mpr
    fun e => (hmem e).trans List.mem_dedup.symm).length_eq

/-- Triangles are stored in snapshot order and point at their bonds; every bond records the
first triangle of its edge and the last later one (or `-1`), so an edge on at most two
triangles knows exactly both. -/
theorem fromSnapshot_triangle_bonds (snapshot : TriangleSnapshot)
    (hdist : ∀ t ∈ snapshot.groups, t.Distinct) :
    let md := MeshData.fromSnapshot snapshot
    md.meshtriangle.groups.length = snapshot.groups.length ∧
      (∀ g < snapshot.groups.length, TriangleStored snapshot md g) ∧
      (∀ b ∈ md.meshbond.groups, SlotsFor (adjacent snapshot b.tag.edge) b.tag) ∧
      (∀ b ∈ md.meshbond.groups, (adjacent snapshot b.tag.edge).length ≤ 2 →
        adjacent snapshot b.tag.edge = [b.tag.tag2] ∧ b.tag.tag3 = unsignedMinusOne ∨
          adjacent snapshot b.tag.edge = [b.tag.tag2, b.tag.tag3]) := by
  have inv := fromSnapshot_inv snapshot hdist
  exact ⟨inv.length, inv.stored, inv.slots, fun b hb => (inv.slots b hb).of_length_le_two⟩

def sharedEdgeSnapshot : TriangleSnapshot := ⟨[⟨0, 1, 2⟩, ⟨2, 1, 3⟩], [0, 0]⟩

theorem sharedEdge_bond_count :
    (∀ t ∈ sharedEdgeSnapshot.groups, t.Distinct) ∧
      (MeshData.fromSnapshot sharedEdgeSnapshot).meshbond.groups.length = 5 :=
  ⟨by decide, (fromSnapshot_bond_edges sharedEdgeSnapshot (by decide)).2.2.trans (by decide)⟩

theorem sharedEdge_triangle_count :
    (∀ t ∈ sharedEdgeSnapshot.groups, t.Distinct) ∧
      (MeshData.fromSnapshot sharedEdgeSnapshot).meshtriangle.groups.length = 2 :=
  ⟨by decide, (fromSnapshot_triangle_bonds sharedEdgeSnapshot (by decide)).1⟩

example : (MeshData.fromSnapshot sharedEdgeSnapshot).meshbond.groups.map (·.tag) =
    [⟨0, 1, 0, unsignedMinusOne⟩, ⟨0, 2, 0, unsignedMinusOne⟩, ⟨1, 2, 0, 1⟩,
      ⟨2, 3, 1, unsignedMinusOne⟩, ⟨1, 3, 1, unsignedMinusOne⟩] := by decide

/-- Every bond carries the type of the first triangle holding its edge. -/
theorem fromSnapshot_bond_type (snapshot : TriangleSnapshot)
    (hdist : ∀ t ∈ snapshot.groups, t.Distinct) :
    ∀ b ∈ (MeshData.fromSnapshot snapshot).meshbond.groups,
      ∃ g, (adjacent snapshot b.tag.edge).head? = some g ∧ b.type = snapshot.type_id.getD g 0 :=
  have inv := fromSnapshot_inv snapshot hdist
  fun b hb => ⟨b.tag.tag2, (inv.slots b hb).1, inv.type b hb⟩

theorem sharedEdge_bond_type :
    (∀ t ∈ sharedEdgeSnapshot.groups, t.Distinct) ∧
      ∀ b ∈ (MeshData.fromSnapshot sharedEdgeSnapshot).meshbond.groups,
        ∃ g, (adjacent sharedEdgeSnapshot b.tag.edge).head? = some g ∧
          b.type = sharedEdgeSnapshot.type_id.getD g 0 :=
  ⟨by decide, fromSnapshot_bond_type sharedEdgeSnapshot (by decide)⟩

end MeshConstruction
