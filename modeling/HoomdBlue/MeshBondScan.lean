import HoomdBlue.MeshGroups
import Mathlib.Data.List.Dedup

/-! # The constructor's bond search

When the edges already in the table are unique, one pass of `scanBond` marks exactly the
bonds on the triangle and finds the index of each of its edges, whether or not the loop
leaves early at `dreieck == 3`. -/
namespace MeshBondScan

open MeshGroups

variable {t : TriangleMembers} {group_idx : Nat}

def tableEdges (bonds : List (BondedGroup BondMembers)) : List (Sym2 Nat) :=
  bonds.map fun g => g.tag.edge

/-- A bond as the search leaves it: `tag[3]` set to `group_idx` when it is on the triangle. -/
def markIf (t : TriangleMembers) (group_idx : Nat) (g : BondedGroup BondMembers) :
    BondedGroup BondMembers :=
  if g.tag.edge ∈ t.edges then { g with tag := { g.tag with tag3 := group_idx } } else g

def markPrefix (t : TriangleMembers) (group_idx k : Nat)
    (bonds : List (BondedGroup BondMembers)) : List (BondedGroup BondMembers) :=
  bonds.mapIdx fun j g => if j < k then markIf t group_idx g else g

/-- What the search must report for edge `e` among the edges `L`: an index holding `e`,
or `-1` when no bond holds it. -/
def FoundAt (L : List (Sym2 Nat)) (e : Sym2 Nat) : Option Nat → Prop
  | some i => L[i]? = some e
  | none => e ∉ L

@[simp] theorem length_tableEdges (l : List (BondedGroup BondMembers)) :
    (tableEdges l).length = l.length :=
  List.length_map _ _

@[simp] theorem tableEdges_append (l l' : List (BondedGroup BondMembers)) :
    tableEdges (l ++ l') = tableEdges l ++ tableEdges l' :=
  List.map_append _ _ _

@[simp] theorem markIf_type (g : BondedGroup BondMembers) :
    (markIf t group_idx g).type = g.type := by
  unfold markIf; split <;> rfl

@[simp] theorem markIf_edge (g : BondedGroup BondMembers) :
    (markIf t group_idx g).tag.edge = g.tag.edge := by
  unfold markIf; split <;> rfl

@[simp] theorem markIf_tag2 (g : BondedGroup BondMembers) :
    (markIf t group_idx g).tag.tag2 = g.tag.tag2 := by
  unfold markIf; split <;> rfl

@[simp] theorem tableEdges_map_markIf (l : List (BondedGroup BondMembers)) :
    tableEdges (l.map (markIf t group_idx)) = tableEdges l := by
  simp [tableEdges]

theorem markIf_of_not_mem {g : BondedGroup BondMembers} (h : g.tag.edge ∉ t.edges) :
    markIf t group_idx g = g := if_neg h

theorem markPrefix_getElem? (bonds : List (BondedGroup BondMembers)) (k j : Nat) :
    (markPrefix t group_idx k bonds)[j]? =
      bonds[j]?.map fun g => if j < k then markIf t group_idx g else g := by
  simp [markPrefix, List.getElem?_mapIdx]

theorem markPrefix_zero (bonds : List (BondedGroup BondMembers)) :
    markPrefix t group_idx 0 bonds = bonds :=
  List.ext_getElem? fun j => by simp [markPrefix_getElem?]

theorem markPrefix_length (bonds : List (BondedGroup BondMembers)) :
    markPrefix t group_idx bonds.length bonds = bonds.map (markIf t group_idx) :=
  List.ext_getElem? fun j => by
    rw [markPrefix_getElem?, List.getElem?_map]
    rcases Nat.lt_or_ge j bonds.length with hj | hj
    · simp [hj]
    · simp [List.getElem?_eq_none hj]

theorem FoundAt.append {L M : List (Sym2 Nat)} {e : Sym2 Nat} {x : Option Nat}
    (h : FoundAt L e x) (hM : e ∉ M) : FoundAt (L ++ M) e x := by
  cases x with
  | none => simpa [FoundAt, hM] using h
  | some i =>
    have hi : i < L.length := (List.getElem?_eq_some_iff.mp h).1
    simpa [FoundAt, List.getElem?_append_left hi] using h

theorem FoundAt.append_ne {L : List (Sym2 Nat)} {e e' : Sym2 Nat} {x : Option Nat}
    (h : FoundAt L e x) (hne : e' ≠ e) : FoundAt (L ++ [e']) e x :=
  h.append (by simpa using Ne.symm hne)

theorem FoundAt.append_self {L : List (Sym2 Nat)} {k : Nat} (e : Sym2 Nat) (h : L.length = k) :
    FoundAt (L ++ [e]) e (some k) := by
  simp [FoundAt, ← h]

/-! ## One iteration -/

theorem mem_edge_iff (m : BondMembers) (x : Nat) :
    (m.tag0 = x ∨ m.tag1 = x) ↔ x ∈ m.edge := by
  simp [BondMembers.edge, Sym2.mem_iff, eq_comm]

theorem not_three_mem (ht : t.Distinct) (e : Sym2 Nat) :
    ¬ (t.tag0 ∈ e ∧ t.tag1 ∈ e ∧ t.tag2 ∈ e) := by
  induction e using Sym2.ind with
  | h x y =>
    simp only [Sym2.mem_iff]
    obtain ⟨h01, h02, h12⟩ := ht
    omega

theorem edges_ne (ht : t.Distinct) :
    s(t.tag0, t.tag1) ≠ s(t.tag0, t.tag2) ∧ s(t.tag0, t.tag1) ≠ s(t.tag1, t.tag2) ∧
      s(t.tag0, t.tag2) ≠ s(t.tag1, t.tag2) := by
  obtain ⟨h01, h02, h12⟩ := ht
  refine ⟨?_, ?_, ?_⟩ <;> simp only [ne_eq, Sym2.eq_iff] <;> omega

theorem edges_nodup (ht : t.Distinct) : t.edges.Nodup := by
  obtain ⟨h1, h2, h3⟩ := edges_ne ht
  simp [TriangleMembers.edges, h1, h2, h3]

/-- The nested membership tests select the edge of the triangle the bond equals. -/
theorem scanBond_of_lt (ht : t.Distinct) (st : ScanState) (i : Nat) (hd : st.dreieck < 3) :
    scanBond t.tag0 t.tag1 t.tag2 group_idx st i =
      let bond := st.bonds.getMembersByIndex i
      let marked := st.bonds.setMemberByIndex i { bond with tag3 := group_idx }
      if bond.edge = s(t.tag0, t.tag1) then
        { st with dreieck := st.dreieck + 1, aa := some i, bonds := marked }
      else if bond.edge = s(t.tag0, t.tag2) then
        { st with dreieck := st.dreieck + 1, bb := some i, bonds := marked }
      else if bond.edge = s(t.tag1, t.tag2) then
        { st with dreieck := st.dreieck + 1, cc := some i, bonds := marked }
      else st := by
  have h3 := not_three_mem ht (st.bonds.getMembersByIndex i).edge
  obtain ⟨h01, h02, h12⟩ := ht
  simp only [scanBond, hd, if_true, mem_edge_iff, ← Sym2.mem_and_mem_iff h01,
    ← Sym2.mem_and_mem_iff h02, ← Sym2.mem_and_mem_iff h12]
  by_cases ha : t.tag0 ∈ (st.bonds.getMembersByIndex i).edge <;>
  by_cases hb : t.tag1 ∈ (st.bonds.getMembersByIndex i).edge <;>
  by_cases hc : t.tag2 ∈ (st.bonds.getMembersByIndex i).edge <;> simp_all

/-! ## The loop -/

/-- The search after iterations `0 .. k-1` over the table `bonds` it started from. -/
structure ScanInv (t : TriangleMembers) (group_idx : Nat)
    (bonds : List (BondedGroup BondMembers)) (k : Nat) (st : ScanState) : Prop where
  groups : st.bonds.groups = markPrefix t group_idx k bonds
  dreieck : st.dreieck = ((tableEdges (bonds.take k)).filter (· ∈ t.edges)).length
  aa : FoundAt (tableEdges (bonds.take k)) s(t.tag0, t.tag1) st.aa
  bb : FoundAt (tableEdges (bonds.take k)) s(t.tag0, t.tag2) st.bb
  cc : FoundAt (tableEdges (bonds.take k)) s(t.tag1, t.tag2) st.cc

section loop

variable {bonds : List (BondedGroup BondMembers)} {k : Nat} {b : BondedGroup BondMembers}

theorem tableEdges_take_succ (hb : bonds[k]? = some b) :
    tableEdges (bonds.take (k + 1)) = tableEdges (bonds.take k) ++ [b.tag.edge] := by
  simp [tableEdges, List.take_succ, hb]

theorem markPrefix_set (hb : bonds[k]? = some b) (hon : b.tag.edge ∈ t.edges) :
    (markPrefix t group_idx k bonds).modify
      (fun g => { g with tag := { b.tag with tag3 := group_idx } }) k =
      markPrefix t group_idx (k + 1) bonds := by
  refine List.ext_getElem? fun j => ?_
  rw [List.getElem?_modify, markPrefix_getElem?, markPrefix_getElem?]
  by_cases hj : k = j
  · subst hj; simp [hb, markIf, hon]
  · have : (j < k + 1) = (j < k) := propext (by omega)
    simp [hj, this]

theorem markPrefix_succ_of_not_mem (hb : bonds[k]? = some b) (hoff : b.tag.edge ∉ t.edges) :
    markPrefix t group_idx k bonds = markPrefix t group_idx (k + 1) bonds := by
  refine List.ext_getElem? fun j => ?_
  rw [markPrefix_getElem?, markPrefix_getElem?]
  by_cases hj : k = j
  · subst hj; simp [hb, markIf_of_not_mem hoff]
  · have : (j < k + 1) = (j < k) := propext (by omega)
    simp [this]

theorem count_le_three (hnd : (tableEdges bonds).Nodup) (n : Nat) :
    ((tableEdges (bonds.take n)).filter (· ∈ t.edges)).length ≤ 3 := by
  have hnd' : ((tableEdges (bonds.take n)).filter (· ∈ t.edges)).Nodup :=
    ((hnd.sublist (by simpa [tableEdges] using List.take_sublist n _)).filter _)
  exact (hnd'.subperm fun x hx => by simpa using (List.mem_filter.mp hx).2).length_le

theorem ScanInv.succ_of_not_mem {st : ScanState} (inv : ScanInv t group_idx bonds k st)
    (hb : bonds[k]? = some b) (hoff : b.tag.edge ∉ t.edges) :
    ScanInv t group_idx bonds (k + 1) st := by
  have hne : ∀ e ∈ t.edges, b.tag.edge ≠ e := fun e he h => hoff (h ▸ he)
  have hsplit := tableEdges_take_succ hb
  refine ⟨(markPrefix_succ_of_not_mem hb hoff) ▸ inv.groups, ?_, ?_, ?_, ?_⟩
  · rw [hsplit, List.filter_append, inv.dreieck]; simp [hoff]
  · rw [hsplit]; exact inv.aa.append_ne (hne _ (by simp [TriangleMembers.edges]))
  · rw [hsplit]; exact inv.bb.append_ne (hne _ (by simp [TriangleMembers.edges]))
  · rw [hsplit]; exact inv.cc.append_ne (hne _ (by simp [TriangleMembers.edges]))

/-- One iteration keeps the invariant, the early exit included: once `dreieck` is 3 every
edge of the triangle has been seen, so by uniqueness bond `k` is off the triangle. -/
theorem ScanInv.succ (ht : t.Distinct) (hnd : (tableEdges bonds).Nodup) (hk : k < bonds.length)
    {st : ScanState} (inv : ScanInv t group_idx bonds k st) :
    ScanInv t group_idx bonds (k + 1) (scanBond t.tag0 t.tag1 t.tag2 group_idx st k) := by
  obtain ⟨b, hb⟩ : ∃ b, bonds[k]? = some b := ⟨_, List.getElem?_eq_getElem hk⟩
  have hread : st.bonds.getMembersByIndex k = b.tag := by
    simp [MeshGroupData.getMembersByIndex, List.getD_eq_getElem?_getD, inv.groups,
      markPrefix_getElem?, hb]
  have hsplit := tableEdges_take_succ hb
  have hlen : (tableEdges (bonds.take k)).length = k := by simp; omega
  have hset : b.tag.edge ∈ t.edges → (st.bonds.setMemberByIndex k
      { b.tag with tag3 := group_idx }).groups = markPrefix t group_idx (k + 1) bonds :=
    fun hon => by simpa [MeshGroupData.setMemberByIndex, inv.groups] using markPrefix_set hb hon
  have hcount : b.tag.edge ∈ t.edges → ((tableEdges (bonds.take (k + 1))).filter
      (· ∈ t.edges)).length = st.dreieck + 1 := fun hon => by
    simp [hsplit, List.filter_append, inv.dreieck, hon]
  obtain ⟨hab_ac, hab_bc, hac_bc⟩ := edges_ne ht
  by_cases hd : st.dreieck < 3
  · rw [scanBond_of_lt ht st k hd]
    simp only [hread]
    split_ifs with h1 h2 h3
    · have hon : b.tag.edge ∈ t.edges := by simp [TriangleMembers.edges, h1]
      refine ⟨hset hon, (hcount hon).symm, ?_, ?_, ?_⟩
      · rw [hsplit, h1]; exact FoundAt.append_self _ hlen
      · rw [hsplit]; exact inv.bb.append_ne (h1 ▸ hab_ac)
      · rw [hsplit]; exact inv.cc.append_ne (h1 ▸ hab_bc)
    · have hon : b.tag.edge ∈ t.edges := by simp [TriangleMembers.edges, h2]
      refine ⟨hset hon, (hcount hon).symm, ?_, ?_, ?_⟩
      · rw [hsplit]; exact inv.aa.append_ne h1
      · rw [hsplit, h2]; exact FoundAt.append_self _ hlen
      · rw [hsplit]; exact inv.cc.append_ne (h2 ▸ hac_bc)
    · have hon : b.tag.edge ∈ t.edges := by simp [TriangleMembers.edges, h3]
      refine ⟨hset hon, (hcount hon).symm, ?_, ?_, ?_⟩
      · rw [hsplit]; exact inv.aa.append_ne h1
      · rw [hsplit]; exact inv.bb.append_ne h2
      · rw [hsplit, h3]; exact FoundAt.append_self _ hlen
    · exact inv.succ_of_not_mem hb (by simp [TriangleMembers.edges, h1, h2, h3])
  · have hoff : b.tag.edge ∉ t.edges := fun hon => by
      have : _ ≤ 3 := count_le_three (t := t) hnd (k + 1)
      have := hcount hon
      omega
    simpa [scanBond, hd] using inv.succ_of_not_mem hb hoff

theorem scanInv_range (ht : t.Distinct) (hnd : (tableEdges bonds).Nodup) :
    ∀ k ≤ bonds.length, ScanInv t group_idx bonds k ((List.range k).foldl
      (scanBond t.tag0 t.tag1 t.tag2 group_idx) ⟨⟨bonds⟩, 0, none, none, none⟩)
  | 0, _ => ⟨(markPrefix_zero bonds).symm, rfl, List.not_mem_nil _, List.not_mem_nil _,
      List.not_mem_nil _⟩
  | k + 1, hk => by
    rw [List.range_succ, List.foldl_append]
    exact (scanInv_range ht hnd k (by omega)).succ ht hnd (by omega)

/-- The whole search over a table whose edges are unique: it marks exactly the bonds on
the triangle and reports every edge of the triangle at its index, or as missing. -/
theorem scan_spec (group_idx : Nat) (ht : t.Distinct) (bonds : MeshGroupData BondMembers)
    (hnd : (tableEdges bonds.groups).Nodup) :
    let st := (List.range bonds.getN).foldl (scanBond t.tag0 t.tag1 t.tag2 group_idx)
      ⟨bonds, 0, none, none, none⟩
    st.bonds.groups = bonds.groups.map (markIf t group_idx) ∧
      FoundAt (tableEdges bonds.groups) s(t.tag0, t.tag1) st.aa ∧
      FoundAt (tableEdges bonds.groups) s(t.tag0, t.tag2) st.bb ∧
      FoundAt (tableEdges bonds.groups) s(t.tag1, t.tag2) st.cc := by
  obtain ⟨bonds⟩ := bonds
  have inv : ScanInv t group_idx bonds bonds.length _ := scanInv_range ht hnd _ le_rfl
  have htake : bonds.take bonds.length = bonds := List.take_of_length_le le_rfl
  have haa := inv.aa
  have hbb := inv.bb
  have hcc := inv.cc
  rw [htake] at haa hbb hcc
  exact ⟨inv.groups.trans (markPrefix_length bonds), haa, hbb, hcc⟩

end loop

end MeshBondScan
