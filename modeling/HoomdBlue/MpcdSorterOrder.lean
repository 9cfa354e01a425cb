import HoomdBlue.MpcdSorter
import Mathlib.Data.List.Nodup

/-! # The sort orders every particle once

For every cell-list layout whose counted entries hold each particle index exactly once, the
four launches of the sorter produce `num_select = N`, an order listing the particles cell by
cell, its inverse, and the particle records permuted by it. -/
namespace MpcdSorterOrder

open MpcdSorter

variable {Scalar4 : Type}

theorem Launch.lt_threads (l : Launch) (N : Nat) : N < l.threads N := by
  rw [Launch.threads, Nat.succ_mul]
  exact Nat.lt_div_mul_add l.pos

theorem sortSetSentinel_of_lt (d_cell_list d_cell_np : Nat → Nat) (cli : Index2D) (sentinel : Nat)
    (l : Launch) {idx : Nat} (hidx : idx < cli.getNumElements) :
    sortSetSentinel d_cell_list d_cell_np cli sentinel l idx =
      if idx % cli.w < d_cell_np (idx / cli.w) then d_cell_list idx else sentinel := by
  have hl := (Launch.lt_threads l cli.getNumElements).trans' hidx
  have hmod : idx - idx / cli.w * cli.w = idx % cli.w := by
    have := Nat.mod_add_div' idx cli.w
    omega
  simp only [sortSetSentinel, hl, if_true, kernel.sortSetSentinel, Index2D.getW, hmod,
    not_le.mpr hidx, if_false]
  split <;> split <;> omega


/-- The entries the counts cover: the first `d_cell_np[c]` entries of each cell `c`, cells
in order. -/
def filledEntries (cli : Index2D) (d_cell_list d_cell_np : Nat → Nat) : List Nat :=
  (List.range cli.h).flatMap fun c =>
    (List.range (d_cell_np c)).map fun o => d_cell_list (cli.idx o c)

section compaction

variable {cli : Index2D} {d_cell_list d_cell_np : Nat → Nat} {N sentinel : Nat} {l : Launch}

theorem idx_lt {o c : Nat} (ho : o < cli.w) (hc : c < cli.h) : cli.idx o c < cli.getNumElements :=
  calc cli.idx o c < c * cli.w + cli.w := by simp only [Index2D.idx]; omega
    _ = (c + 1) * cli.w := (Nat.succ_mul c cli.w).symm
    _ ≤ cli.h * cli.w := Nat.mul_le_mul_right _ hc
    _ = cli.getNumElements := Nat.mul_comm _ _

theorem idx_mod_div {o c : Nat} (ho : o < cli.w) :
    cli.idx o c % cli.w = o ∧ cli.idx o c / cli.w = c := by
  refine ⟨Nat.mul_add_mod_of_lt ho, ?_⟩
  rw [Index2D.idx, Nat.add_comm, Nat.add_mul_div_right _ _ (by omega), Nat.div_eq_of_lt ho,
    Nat.zero_add]

theorem filter_row (hnp : d_cell_np c ≤ cli.w) (hsent : N ≤ sentinel) (hc : c < cli.h) :
    ((List.range cli.w).map fun o =>
        sortSetSentinel d_cell_list d_cell_np cli sentinel l (cli.idx o c)).filter (lessThan N) =
      ((List.range (d_cell_np c)).map fun o => d_cell_list (cli.idx o c)).filter (lessThan N) := by
  rw [← Nat.add_sub_cancel' hnp, List.range_add, List.map_append, List.filter_append,
    List.map_map]
  have hstale : ((List.map ((fun o => sortSetSentinel d_cell_list d_cell_np cli sentinel l
      (cli.idx o c)) ∘ fun x => d_cell_np c + x) (List.range (cli.w - d_cell_np c))).filter
      (lessThan N)) = [] := by
    refine List.filter_eq_nil_iff.mpr fun v hv => ?_
    obtain ⟨x, hx, rfl⟩ := List.mem_map.mp hv
    have hx : d_cell_np c + x < cli.w := by rw [List.mem_range] at hx; omega
    simp only [Function.comp, sortSetSentinel_of_lt _ _ _ _ _ (idx_lt hx hc),
      (idx_mod_div hx).1, (idx_mod_div hx).2, lessThan,
      if_neg (Nat.not_lt.mpr (Nat.le_add_right _ _))]
    simp; omega
  rw [hstale, List.append_nil]
  congr 1
  refine List.map_congr_left fun o ho => ?_
  have ho' : o < cli.w := by rw [List.mem_range] at ho; omega
  rw [sortSetSentinel_of_lt _ _ _ _ _ (idx_lt ho' hc), (idx_mod_div ho').1, (idx_mod_div ho').2,
    if_pos (List.mem_range.mp ho)]

theorem filter_rows (hnp : ∀ c < cli.h, d_cell_np c ≤ cli.w) (hsent : N ≤ sentinel) :
    ∀ H ≤ cli.h, ((List.range (H * cli.w)).map
        (sortSetSentinel d_cell_list d_cell_np cli sentinel l)).filter (lessThan N) =
      ((List.range H).flatMap fun c => (List.range (d_cell_np c)).map fun o =>
        d_cell_list (cli.idx o c)).filter (lessThan N)
  | 0, _ => by simp
  | H + 1, hH => by
    rw [Nat.succ_mul, List.range_add, List.map_append, List.filter_append,
      filter_rows hnp hsent H (by omega), List.range_succ, List.flatMap_append,
      List.filter_append, List.map_map]
    simpa using filter_row (l := l) (hnp H hH) hsent hH

/-- After the sentinel pass the compaction selects the counted entries below `N`, cell by
cell and in cell-list order. -/
theorem compact_after_sentinel (hnp : ∀ c < cli.h, d_cell_np c ≤ cli.w)
    (hsent : N ≤ sentinel) :
    ((List.range cli.getNumElements).map
        (sortSetSentinel d_cell_list d_cell_np cli sentinel l)).filter (lessThan N) =
      (filledEntries cli d_cell_list d_cell_np).filter (lessThan N) := by
  rw [Index2D.getNumElements, Nat.mul_comm]
  exact filter_rows hnp hsent cli.h le_rfl

end compaction


theorem filter_perm_range {L : List Nat} {N : Nat} (hfill : ∀ j < N, L.count j = 1) :
    (L.filter (lessThan N)).Perm (List.range N) := by
  refine List.perm_iff_count.mpr fun a => ?_
  by_cases ha : a < N
  · rw [List.count_filter (by simpa [lessThan] using ha), hfill a ha,
      List.count_eq_one_of_mem (List.nodup_range N) (List.mem_range.mpr ha)]
  · rw [List.count_eq_zero_of_not_mem (by simp [lessThan, ha]),
      List.count_eq_zero_of_not_mem (by simpa using ha)]

theorem sortGenReverse_eq (d_rorder d_order : Nat → Nat) (N : Nat) (l : Launch) :
    sortGenReverse d_rorder d_order N l =
      (List.range N).foldl (fun r idx => Function.update r (d_order idx) idx) d_rorder := by
  unfold sortGenReverse
  split
  · subst N; rfl
  · obtain ⟨k, hk⟩ : ∃ k, l.threads N = N + k :=
      ⟨_, (Nat.add_sub_cancel' (Launch.lt_threads l N).le).symm⟩
    rw [hk, List.range_add, List.foldl_append, List.foldl_map]
    rw [List.foldl_fixed' (fun r => by simp [kernel.sortGenReverse])]
    exact List.foldl_ext _ _ _ fun r idx hidx => by
      simp [kernel.sortGenReverse, not_le.mpr (List.mem_range.mp hidx)]

/-- Writing `r[order[idx]] = idx` for each `idx < k` in turn inverts an injective `order`. -/
theorem foldl_update_order {order : Nat → Nat} (r₀ : Nat → Nat) :
    ∀ k, (∀ i < k, ∀ j < k, order i = order j → i = j) →
      ∀ i < k, ((List.range k).foldl (fun r idx => Function.update r (order idx) idx) r₀)
        (order i) = i
  | 0, _, i, hi => absurd hi (Nat.not_lt_zero i)
  | k + 1, hinj, i, hi => by
    rw [List.range_succ, List.foldl_append, List.foldl_cons, List.foldl_nil]
    rcases Nat.lt_succ_iff_lt_or_eq.mp hi with hi | rfl
    · have hne : order i ≠ order k := fun h => by
        have := hinj i (by omega) k (by omega) h; omega
      rw [Function.update_noteq hne]
      exact foldl_update_order r₀ k (fun a ha b hb => hinj a (by omega) b (by omega)) i hi
    · exact Function.update_same _ _ _

theorem sortApply_of_lt (alt parts : ParticleArrays Scalar4) (d_order : Nat → Nat) (l : Launch)
    {N i : Nat} (hi : i < N) :
    (sortApply alt parts d_order N l).pos i = parts.pos (d_order i) ∧
      (sortApply alt parts d_order N l).vel i = parts.vel (d_order i) ∧
      (sortApply alt parts d_order N l).tag i = parts.tag (d_order i) := by
  have hN : N ≠ 0 := by omega
  have ht : i < l.threads N := hi.trans (Launch.lt_threads l N)
  simp [sortApply, hN, ht, kernel.sortApply, not_le.mpr hi]


/-- The sort over any cell list whose counted entries hold each particle index once: the
compacted order lists every particle once, cell by cell, its reverse inverts it, and the
particle records are permuted by it. -/
theorem sortOrder_sorts (cli : Index2D) (d_cell_np : Nat → Nat) (N sentinel : Nat)
    (lSentinel lReverse lApply : Launch) (parts : ParticleArrays Scalar4) (s : SortState Scalar4)
    (hnp : ∀ c < cli.h, d_cell_np c ≤ cli.w) (hsent : N ≤ sentinel)
    (hfill : ∀ j < N, (filledEntries cli s.cell_list d_cell_np).count j = 1) :
    let r := sortOrder cli d_cell_np N sentinel lSentinel lReverse lApply parts s
    r.num_select = N ∧
      (List.range N).map r.order = (filledEntries cli s.cell_list d_cell_np).filter (lessThan N) ∧
      ((List.range N).map r.order).Perm (List.range N) ∧
      (∀ i < N, r.rorder (r.order i) = i) ∧ (∀ j < N, r.order (r.rorder j) = j) ∧
      (∀ i < N, r.alt.pos i = parts.pos (r.order i) ∧ r.alt.vel i = parts.vel (r.order i) ∧
        r.alt.tag i = parts.tag (r.order i)) ∧
      ((List.range N).map fun i => (r.alt.pos i, r.alt.vel i, r.alt.tag i)).Perm
        ((List.range N).map fun j => (parts.pos j, parts.vel j, parts.tag j)) := by
  set F := (filledEntries cli s.cell_list d_cell_np).filter (lessThan N)
  have hsel : ((List.range cli.getNumElements).map (sortSetSentinel s.cell_list d_cell_np cli
      sentinel lSentinel)).filter (lessThan N) = F := compact_after_sentinel hnp hsent
  have hperm : F.Perm (List.range N) := filter_perm_range hfill
  have hlen : F.length = N := by simpa using hperm.length_eq
  have hnd : F.Nodup := hperm.nodup_iff.mpr (List.nodup_range N)
  simp only [sortOrder, sortCellCompact, hsel]
  set order := fun i => F.getD i (s.order i)
  have horder : ∀ i (hi : i < N), order i = F[i] := fun i hi => by
    simp [order, List.getD_eq_getElem?_getD, List.getElem?_eq_getElem (hlen ▸ hi)]
  have hmap : (List.range N).map order = F :=
    List.ext_getElem (by simp [hlen]) fun i h₁ _ => by
      simp only [List.getElem_map, List.getElem_range]
      exact horder i (by simpa using h₁)
  have hinv : ∀ i < N, sortGenReverse s.rorder order N lReverse (order i) = i := by
    rw [sortGenReverse_eq]
    refine foldl_update_order _ N fun i hi j hj h => ?_
    rw [horder i hi, horder j hj] at h
    exact (hnd.getElem_inj_iff).mp h
  refine ⟨hlen, hmap, hmap ▸ hperm, hinv, fun j hj => ?_,
    fun i hi => sortApply_of_lt s.alt parts order lApply hi, ?_⟩
  · obtain ⟨i, hi, hFi⟩ := List.mem_iff_getElem.mp (hperm.mem_iff.mpr (List.mem_range.mpr hj))
    have hiN : i < N := hlen ▸ hi
    rw [← hFi, ← horder i hiN, hinv i hiN]
  · have hrec : ∀ i ∈ List.range N, ((sortApply s.alt parts order N lApply).pos i,
        (sortApply s.alt parts order N lApply).vel i,
        (sortApply s.alt parts order N lApply).tag i) =
        (fun j => (parts.pos j, parts.vel j, parts.tag j)) (order i) := fun i hi => by
      obtain ⟨h1, h2, h3⟩ := sortApply_of_lt s.alt parts order lApply (List.mem_range.mp hi)
      rw [h1, h2, h3]
    have := hperm.map fun j => (parts.pos j, parts.vel j, parts.tag j)
    rw [← hmap, List.map_map] at this
    exact (List.map_congr_left hrec).symm ▸ this

def twoCellList (i : Nat) : Nat := [1, 0, 2, 7].getD i 0

def twoCellCounts (c : Nat) : Nat := [2, 1].getD c 0

def warpLaunch : Launch := ⟨32, 1024, by decide⟩

theorem twoCell_sorted :
    (∀ c < 2, twoCellCounts c ≤ 2) ∧ 3 ≤ 0xFFFFFFFF ∧
      (∀ j < 3, (filledEntries ⟨2, 2⟩ twoCellList twoCellCounts).count j = 1) ∧
      (sortOrder ⟨2, 2⟩ twoCellCounts 3 0xFFFFFFFF warpLaunch warpLaunch warpLaunch
        (⟨id, id, id⟩ : ParticleArrays Nat)
        ⟨twoCellList, id, 0, id, ⟨id, id, id⟩⟩).num_select = 3 :=
  ⟨by decide, by decide, by decide,
    (sortOrder_sorts ⟨2, 2⟩ twoCellCounts 3 0xFFFFFFFF warpLaunch warpLaunch warpLaunch
      ⟨id, id, id⟩ ⟨twoCellList, id, 0, id, ⟨id, id, id⟩⟩ (by decide) (by decide)
      (by decide)).1⟩

example : (List.range 3).map (sortOrder ⟨2, 2⟩ twoCellCounts 3 0xFFFFFFFF warpLaunch warpLaunch
    warpLaunch (⟨id, id, id⟩ : ParticleArrays Nat)
    ⟨twoCellList, id, 0, id, ⟨id, id, id⟩⟩).rorder =
    [1, 0, 2] := by decide

end MpcdSorterOrder
