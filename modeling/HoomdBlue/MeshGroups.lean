import Mathlib.Data.Sym.Sym2

/-! # Mesh bond and triangle tables

`MeshGroupData` and the serial `MeshData(pdata, TriangleData::Snapshot)` constructor. Slots holding
`-1` are `Option Nat` (`int`) or `unsignedMinusOne`; `addBondedGroup` appends, as serial
`BondedGroupData` does. -/
namespace MeshGroups

structure TriangleMembers where
  tag0 : Nat
  tag1 : Nat
  tag2 : Nat
  deriving DecidableEq, Repr, Inhabited

/-- `group_storage<4>` of a mesh bond: the particle tags of the edge, then the indices of
the triangles on its two sides. -/
structure BondMembers where
  tag0 : Nat
  tag1 : Nat
  tag2 : Nat
  tag3 : Nat
  deriving DecidableEq, Repr, Inhabited

structure MeshTriangleMembers where
  tag0 : Nat
  tag1 : Nat
  tag2 : Nat
  tag3 : Nat
  tag4 : Nat
  tag5 : Nat
  deriving DecidableEq, Repr, Inhabited

structure BondedGroup (members_t : Type) where
  type : Nat
  tag : members_t
  deriving DecidableEq, Repr, Inhabited

structure MeshGroupData (members_t : Type) where
  groups : List (BondedGroup members_t)
  deriving DecidableEq, Repr

namespace MeshGroupData

variable {members_t : Type}

def getN (d : MeshGroupData members_t) : Nat := d.groups.length

def getMembersByIndex [Inhabited members_t] (d : MeshGroupData members_t) (i : Nat) :
    members_t :=
  (d.groups.getD i default).tag

def setMemberByIndex (d : MeshGroupData members_t) (i : Nat) (m : members_t) :
    MeshGroupData members_t :=
  ⟨d.groups.modify (fun g => { g with tag := m }) i⟩

def addBondedGroup (d : MeshGroupData members_t) (g : BondedGroup members_t) :
    MeshGroupData members_t :=
  ⟨d.groups ++ [g]⟩

end MeshGroupData

def BondMembers.edge (m : BondMembers) : Sym2 Nat := s(m.tag0, m.tag1)

/-- Edges `{a,b}`, `{a,c}`, `{b,c}` of a triangle: the order of `aa`, `bb`, `cc`. -/
def TriangleMembers.edges (t : TriangleMembers) : List (Sym2 Nat) :=
  [s(t.tag0, t.tag1), s(t.tag0, t.tag2), s(t.tag1, t.tag2)]

def TriangleMembers.Distinct (t : TriangleMembers) : Prop :=
  t.tag0 ≠ t.tag1 ∧ t.tag0 ≠ t.tag2 ∧ t.tag1 ≠ t.tag2

instance (t : TriangleMembers) : Decidable t.Distinct :=
  inferInstanceAs (Decidable (_ ∧ _ ∧ _))

def unsignedMinusOne : Nat := 0xFFFFFFFF

def meshBond (type a b ag bg : Nat) : BondedGroup BondMembers := ⟨type, ⟨a, b, ag, bg⟩⟩

def meshTriangle (type a b c aa bb cc : Nat) : BondedGroup MeshTriangleMembers :=
  ⟨type, ⟨a, b, c, aa, bb, cc⟩⟩

/-- The bond search's state: the table, the count `dreieck`, and `aa, bb, cc` (`none` for `-1`). -/
structure ScanState where
  bonds : MeshGroupData BondMembers
  dreieck : Nat
  aa : Option Nat
  bb : Option Nat
  cc : Option Nat

/-- Iteration `i` of the search for the edges of triangle `group_idx`, guard `dreieck < 3` first. -/
def scanBond (a b c group_idx : Nat) (st : ScanState) (i : Nat) : ScanState :=
  if st.dreieck < 3 then
    let bond := st.bonds.getMembersByIndex i
    let marked := st.bonds.setMemberByIndex i { bond with tag3 := group_idx }
    if bond.tag0 = a ∨ bond.tag1 = a then
      if bond.tag0 = b ∨ bond.tag1 = b then
        { st with dreieck := st.dreieck + 1, aa := some i, bonds := marked }
      else if bond.tag0 = c ∨ bond.tag1 = c then
        { st with dreieck := st.dreieck + 1, bb := some i, bonds := marked }
      else st
    else if bond.tag0 = b ∨ bond.tag1 = b then
      if bond.tag0 = c ∨ bond.tag1 = c then
        { st with dreieck := st.dreieck + 1, cc := some i, bonds := marked }
      else st
    else st
  else st

/-- `if (aa == -1) { addBondedGroup(bond); aa = size; size += 1; }`, returning the table,
the index and the new `size`. -/
def addMissingBond (found : Option Nat) (bond : BondedGroup BondMembers)
    (bonds : MeshGroupData BondMembers) (size : Nat) : MeshGroupData BondMembers × Nat × Nat :=
  match found with
  | some i => (bonds, i, size)
  | none => (bonds.addBondedGroup bond, size, size + 1)

structure TriangleSnapshot where
  groups : List TriangleMembers
  type_id : List Nat
  deriving DecidableEq, Repr

structure MeshData where
  meshbond : MeshGroupData BondMembers
  meshtriangle : MeshGroupData MeshTriangleMembers
  deriving DecidableEq, Repr

def MeshData.addTriangle (snapshot : TriangleSnapshot) (m : MeshData) (group_idx : Nat) :
    MeshData :=
  let type := snapshot.type_id.getD group_idx 0
  let t := snapshot.groups.getD group_idx default
  let size := m.meshbond.getN
  let st := (List.range size).foldl (scanBond t.tag0 t.tag1 t.tag2 group_idx)
    ⟨m.meshbond, 0, none, none, none⟩
  let (bonds, aa, size) :=
    addMissingBond st.aa (meshBond type t.tag0 t.tag1 group_idx unsignedMinusOne) st.bonds size
  let (bonds, bb, size) :=
    addMissingBond st.bb (meshBond type t.tag0 t.tag2 group_idx unsignedMinusOne) bonds size
  let (bonds, cc, _) :=
    addMissingBond st.cc (meshBond type t.tag1 t.tag2 group_idx unsignedMinusOne) bonds size
  ⟨bonds, m.meshtriangle.addBondedGroup (meshTriangle type t.tag0 t.tag1 t.tag2 aa bb cc)⟩

def MeshData.fromSnapshot (snapshot : TriangleSnapshot) : MeshData :=
  (List.range snapshot.groups.length).foldl (MeshData.addTriangle snapshot) ⟨⟨[]⟩, ⟨[]⟩⟩

end MeshGroups
