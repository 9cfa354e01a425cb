import Mathlib.Data.List.Perm.Basic
import Mathlib.Data.List.Range
import Mathlib.Logic.Function.Basic

/-! # The MPCD cell-list sort on the GPU

The kernels and drivers of `mpcd/SorterGPU.cu`; a device array is a function on indices. Threads
writing only their own entry give the value each index receives; `sort_gen_reverse` scatters in
index order; `sort_cell_compact` is `cub::DeviceSelect::If`, a stable filter. -/
namespace MpcdSorter

/-- `Index2D` of the cell list: `w` entries per cell, `h` cells. -/
structure Index2D where
  w : Nat
  h : Nat
  deriving DecidableEq, Repr

def Index2D.getW (cli : Index2D) : Nat := cli.w

def Index2D.getNumElements (cli : Index2D) : Nat := cli.w * cli.h

def Index2D.idx (cli : Index2D) (offset cell : Nat) : Nat := cell * cli.w + offset

/-- A launch of `block_size` threads per block, capped by the kernel's `maxThreadsPerBlock`;
a block of no threads cannot be launched. -/
structure Launch where
  block_size : Nat
  max_block_size : Nat
  pos : 0 < min block_size max_block_size

def Launch.runBlockSize (l : Launch) : Nat := min l.block_size l.max_block_size

def Launch.threads (l : Launch) (N : Nat) : Nat := (N / l.runBlockSize + 1) * l.runBlockSize

structure ParticleArrays (Scalar4 : Type) where
  pos : Nat → Scalar4
  vel : Nat → Scalar4
  tag : Nat → Nat

namespace kernel

variable {Scalar4 : Type}

def sortApply (alt parts : ParticleArrays Scalar4) (d_order : Nat → Nat) (N idx : Nat) :
    Scalar4 × Scalar4 × Nat :=
  if idx ≥ N then (alt.pos idx, alt.vel idx, alt.tag idx)
  else
    let old_idx := d_order idx
    (parts.pos old_idx, parts.vel old_idx, parts.tag old_idx)

/-- Thread `idx` of `sort_set_sentinel`: entry `idx` split into cell and offset, filled with
`sentinel` past the cell's count. -/
def sortSetSentinel (d_cell_list d_cell_np : Nat → Nat) (cli : Index2D)
    (sentinel N_cli idx : Nat) :
    Nat :=
  if idx ≥ N_cli then d_cell_list idx
  else
    let cell := idx / cli.getW
    let offset := idx - cell * cli.getW
    let np := d_cell_np cell
    if offset ≥ np then sentinel else d_cell_list idx

def sortGenReverse (d_order : Nat → Nat) (N : Nat) (d_rorder : Nat → Nat) (idx : Nat) :
    Nat → Nat :=
  if idx ≥ N then d_rorder
  else
    let pid := d_order idx
    Function.update d_rorder pid idx

end kernel

variable {Scalar4 : Type}

def sortApply (alt parts : ParticleArrays Scalar4) (d_order : Nat → Nat) (N : Nat) (l : Launch) :
    ParticleArrays Scalar4 :=
  if N = 0 then alt
  else
    let out idx := if idx < l.threads N then kernel.sortApply alt parts d_order N idx
      else (alt.pos idx, alt.vel idx, alt.tag idx)
    ⟨fun idx => (out idx).1, fun idx => (out idx).2.1, fun idx => (out idx).2.2⟩

def sortSetSentinel (d_cell_list d_cell_np : Nat → Nat) (cli : Index2D) (sentinel : Nat)
    (l : Launch) : Nat → Nat :=
  let N_cli := cli.getNumElements
  fun idx => if idx < l.threads N_cli then
    kernel.sortSetSentinel d_cell_list d_cell_np cli sentinel N_cli idx else d_cell_list idx

def lessThan (compare val : Nat) : Bool := val < compare

/-- `sort_cell_compact`: the entries of the first `num_items` cell-list entries that are
below `N_mpcd`, in order, written to the front of `d_order`, and their number. -/
def sortCellCompact (d_order d_cell_list : Nat → Nat) (num_items N_mpcd : Nat) :
    (Nat → Nat) × Nat :=
  let selected := ((List.range num_items).map d_cell_list).filter (lessThan N_mpcd)
  (fun i => selected.getD i (d_order i), selected.length)

def sortGenReverse (d_rorder d_order : Nat → Nat) (N : Nat) (l : Launch) : Nat → Nat :=
  if N = 0 then d_rorder
  else (List.range (l.threads N)).foldl (kernel.sortGenReverse d_order N) d_rorder

structure SortState (Scalar4 : Type) where
  cell_list : Nat → Nat
  order : Nat → Nat
  num_select : Nat
  rorder : Nat → Nat
  alt : ParticleArrays Scalar4

/-- The launch sequence the kernel documentation prescribes: fill empty entries with the
sentinel, compact the cell list to the order, reverse it, and apply it to the particles. -/
def sortOrder (cli : Index2D) (d_cell_np : Nat → Nat) (N sentinel : Nat)
    (lSentinel lReverse lApply : Launch) (parts : ParticleArrays Scalar4) (s : SortState Scalar4) :
    SortState Scalar4 :=
  let cell_list := sortSetSentinel s.cell_list d_cell_np cli sentinel lSentinel
  let (order, num_select) := sortCellCompact s.order cell_list cli.getNumElements N
  let rorder := sortGenReverse s.rorder order N lReverse
  ⟨cell_list, order, num_select, rorder, sortApply s.alt parts order N lApply⟩

end MpcdSorter
