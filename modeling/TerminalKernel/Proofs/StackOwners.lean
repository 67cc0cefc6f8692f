import TerminalKernel.Proofs.CheckedLayouts
import TerminalKernel.Proofs.TableHistories

namespace TerminalKernel

namespace Layout

/-- The address lies on the kernel stack of a slot, from the process record at its bottom up to the
word above its first stack pointer. -/
def OnStack (l : Layout) (slot : ProcessId) (esp : UInt32) : Prop :=
  (l.recordAddress slot).toNat ≤ esp.toNat ∧ esp.toNat < (l.kernelStackTop slot).toNat + 4

end Layout

namespace ProcessTable

def ownerOfStack? (t : ProcessTable) (esp : UInt32) : Option (Option ProcessId) := do
  let size := t.layout.kernelStackSize
  let stop := t.layout.kernelStackRegionEnd
  if stop ≤ esp then
    return none
  let mask ← Word.sub? size 1
  let above ← Word.div? (← Word.sub? stop (esp &&& ~~~mask)) size
  match Word.sub? above 1 with
  | none => return none
  | some slot => return (t.slots[slot.toNat]?.join).map ProcessRecord.pid

end ProcessTable

theorem toNat_and_not {w size : UInt32} {k : Nat} (hs : size.toNat = 2 ^ k) :
    (w &&& ~~~(size - 1)).toNat = w.toNat / size.toNat * size.toNat := by
  have hmask : (size - 1).toNat = 2 ^ k - 1 := by
    have hone : (1 : UInt32).toNat ≤ size.toNat := hs ▸ Nat.two_pow_pos k
    rw [Word.toNat_sub hone, hs]
    rfl
  apply Nat.eq_of_testBit_eq
  intro i
  have hnot : (~~~(size - 1)).toNat.testBit i = (decide (i < 32) && !(2 ^ k - 1).testBit i) := by
    rw [← hmask]
    exact (BitVec.testBit_toNat _).trans BitVec.getLsbD_not
  rw [UInt32.toNat_and, Nat.testBit_and, hnot, Nat.testBit_two_pow_sub_one, hs,
    Nat.testBit_mul_two_pow, Nat.testBit_div_two_pow]
  by_cases hk : k ≤ i
  · rw [Nat.sub_add_cancel hk]
    by_cases hi : i < 32
    · simp [hk, hi]
    · -- the word has no bit there
      have hhigh : w.toNat.testBit i = false := by
        apply Nat.testBit_lt_two_pow
        exact Nat.lt_of_lt_of_le w.toNat_lt (Nat.pow_le_pow_right (by decide) (Nat.le_of_not_lt hi))
      simp [hhigh]
  · simp [hk, Nat.lt_of_not_le hk]

namespace Layout

/-- How many stacks there are from that of an address up to the end of the region. -/
def stacksFrom (l : Layout) (esp : UInt32) : Nat :=
  l.kernelStackRegionEnd.toNat / l.kernelStackSize.toNat - esp.toNat / l.kernelStackSize.toNat

namespace AlignedStacks

variable {l : Layout} (h : l.AlignedStacks) {esp : UInt32} {slot : ProcessId}
include h

theorem end_eq : l.kernelStackRegionEnd.toNat =
    l.kernelStackRegionEnd.toNat / l.kernelStackSize.toNat * l.kernelStackSize.toNat :=
  (Nat.div_mul_cancel (Nat.dvd_of_mod_eq_zero h.end_mod)).symm

theorem stacksFrom_pos (hlt : esp.toNat < l.kernelStackRegionEnd.toNat) : 0 < l.stacksFrom esp := by
  refine Nat.sub_pos_of_lt (Nat.div_lt_of_lt_mul ?_)
  rw [Nat.mul_comm, ← h.end_eq]
  exact hlt

theorem base_le (hlt : esp.toNat < l.kernelStackRegionEnd.toNat) :
    (esp &&& ~~~(l.kernelStackSize - 1)).toNat ≤ l.kernelStackRegionEnd.toNat := by
  obtain ⟨k, hk⟩ := h.exists_power
  rw [toNat_and_not hk]
  exact (Nat.div_mul_le_self ..).trans hlt.le

theorem toNat_above (hlt : esp.toNat < l.kernelStackRegionEnd.toNat) :
    ((l.kernelStackRegionEnd - (esp &&& ~~~(l.kernelStackSize - 1))) / l.kernelStackSize).toNat =
      l.stacksFrom esp := by
  obtain ⟨k, hk⟩ := h.exists_power
  rw [UInt32.toNat_div, Word.toNat_sub (h.base_le hlt), toNat_and_not hk, h.end_eq, ← Nat.sub_mul, Nat.mul_div_cancel _ h.size_pos]
  rfl

theorem onStack_iff :
    l.OnStack slot esp ↔
      esp.toNat < l.kernelStackRegionEnd.toNat ∧ l.stacksFrom esp = slot + 1 := by
  have hpos := h.size_pos
  have hle := h.distance_le (n := slot + 1) slot.isLt
  have hcount : slot.val + 1 ≤ l.kernelStackRegionEnd.toNat / l.kernelStackSize.toNat :=
    (Nat.le_div_iff_mul_le hpos).mpr (by rwa [Nat.mul_comm])
  have hlower : l.kernelStackRegionEnd.toNat - l.kernelStackSize.toNat * (slot + 1) =
      (l.kernelStackRegionEnd.toNat / l.kernelStackSize.toNat - (slot + 1)) *
        l.kernelStackSize.toNat := by
    rw [Nat.sub_mul, ← h.end_eq, Nat.mul_comm]
  have hupper : l.kernelStackRegionEnd.toNat - l.kernelStackSize.toNat * slot =
      (l.kernelStackRegionEnd.toNat / l.kernelStackSize.toNat - slot) *
        l.kernelStackSize.toNat := by
    rw [Nat.sub_mul, ← h.end_eq, Nat.mul_comm]
  have hend : esp.toNat < l.kernelStackRegionEnd.toNat ↔ esp.toNat / l.kernelStackSize.toNat <
      l.kernelStackRegionEnd.toNat / l.kernelStackSize.toNat := by
    rw [Nat.div_lt_iff_lt_mul hpos, ← h.end_eq]
  rw [OnStack, h.recordAddress_toNat, h.kernelStackTop_toNat, hlower, hupper,
    ← Nat.le_div_iff_mul_le hpos, ← Nat.div_lt_iff_lt_mul hpos, hend, stacksFrom]
  omega

end AlignedStacks

end Layout

namespace ProcessTable

variable {t : ProcessTable} {esp : UInt32} {pid : ProcessId}

theorem ownerOfStack_eq (h : t.layout.AlignedStacks)
    (hlt : esp.toNat < t.layout.kernelStackRegionEnd.toNat) :
    t.ownerOfStack esp =
      (t.slots[t.layout.stacksFrom esp - 1]?.join).map ProcessRecord.pid := by
  have hbelow : ¬t.layout.kernelStackRegionEnd ≤ esp := Nat.not_le.mpr hlt
  have hpos := h.stacksFrom_pos hlt
  unfold ownerOfStack
  simp only [if_neg hbelow, h.toNat_above hlt, if_neg hpos.ne']

theorem ownerOfStack_of_le (hle : t.layout.kernelStackRegionEnd.toNat ≤ esp.toNat) :
    t.ownerOfStack esp = none := if_pos (UInt32.le_iff_toNat_le.mpr hle)

theorem ownerOfStack?_eq (h : t.layout.AlignedStacks) (esp : UInt32) :
    t.ownerOfStack? esp = some (t.ownerOfStack esp) := by
  unfold ownerOfStack?
  by_cases hle : t.layout.kernelStackRegionEnd ≤ esp
  · rw [if_pos hle, ownerOfStack_of_le (UInt32.le_iff_toNat_le.mp hle)]
    rfl
  · have hlt : esp.toNat < t.layout.kernelStackRegionEnd.toNat := Nat.lt_of_not_le hle
    have hpos := h.stacksFrom_pos hlt
    have habove := h.toNat_above hlt
    have hone : (1 : UInt32).toNat = 1 := rfl
    have hsize : t.layout.kernelStackSize ≠ 0 := by
      intro h0
      exact h.size_pos.ne' (congrArg UInt32.toNat h0)
    rw [if_neg hle]
    refine Word.bind_eq_some (Word.sub?_of_le (hone.trans_le h.size_pos)) ?_
    refine Word.bind_eq_some (Word.sub?_of_le (h.base_le hlt)) ?_
    refine Word.bind_eq_some (if_neg hsize) ?_
    have hle : (1 : UInt32).toNat ≤ ((t.layout.kernelStackRegionEnd -
        (esp &&& ~~~(t.layout.kernelStackSize - 1))) / t.layout.kernelStackSize).toNat := by
      rw [habove, hone]
      exact hpos
    rw [Word.sub?_of_le hle, ownerOfStack_eq h hlt, ← habove, ← hone, ← Word.toNat_sub hle]
    rfl

theorem Named.map_slot_eq_some_iff (hn : t.Named) {n : Nat} :
    (t.slots[n]?.join).map ProcessRecord.pid = some pid ↔
      n = pid ∧ ∃ p, t.get? pid = some p := by
  by_cases hlt : n < processCapacity
  · have hslot : t.slots[n]?.join = t.get? ⟨n, hlt⟩ := by
      rw [Vector.getElem?_eq_getElem hlt, Option.join_some]
      exact (Vector.get_eq_getElem t.slots ⟨n, hlt⟩).symm
    rw [hslot, Option.map_eq_some_iff]
    constructor
    · rintro ⟨p, hp, rfl⟩
      have hpid : p.pid = ⟨n, hlt⟩ := hn _ p hp
      rw [hpid]
      exact ⟨rfl, p, hp⟩
    · rintro ⟨rfl, p, hp⟩
      exact ⟨p, hp, hn pid p hp⟩
  · rw [Vector.getElem?_eq_none (Nat.le_of_not_lt hlt)]
    refine iff_of_false nofun ?_
    rintro ⟨rfl, -⟩
    exact hlt pid.isLt

/-- Every address on a stack of the layout belongs to the process in the slot of that stack, and to
nobody else. -/
structure OwnsStacks (t : ProcessTable) : Prop where
  checked : ∀ esp, t.ownerOfStack? esp = some (t.ownerOfStack esp)
  owner : ∀ esp pid, t.ownerOfStack esp = some pid ↔
    (∃ p, t.get? pid = some p) ∧ t.layout.OnStack pid esp
  nobody : ∀ esp, t.ownerOfStack esp = none ↔
    ∀ pid p, t.get? pid = some p → ¬t.layout.OnStack pid esp
  apart : ∀ x y esp, t.layout.OnStack x esp → t.layout.OnStack y esp → x = y
  saved : ∀ pid p (context : SavedContext), t.get? pid = some p →
    t.layout.OnStack pid context.esp → t.ownerOfStack context.esp = some p.pid

theorem ownerOfStack_eq_some_iff (h : t.layout.AlignedStacks) (hn : t.Named) :
    t.ownerOfStack esp = some pid ↔ (∃ p, t.get? pid = some p) ∧ t.layout.OnStack pid esp := by
  rw [h.onStack_iff]
  by_cases hlt : esp.toNat < t.layout.kernelStackRegionEnd.toNat
  · have hpos := h.stacksFrom_pos hlt
    rw [ownerOfStack_eq h hlt, hn.map_slot_eq_some_iff, and_comm]
    refine and_congr_right fun _ => ⟨fun he => ⟨hlt, ?_⟩, fun ⟨_, he⟩ => ?_⟩
    · omega
    · omega
  · rw [ownerOfStack_of_le (Nat.le_of_not_lt hlt)]
    exact iff_of_false nofun fun ⟨_, hyes, _⟩ => hlt hyes

theorem ownsStacks (hv : t.layout.validate = .ok ()) (hn : t.Named) : t.OwnsStacks := by
  have h := Layout.alignedStacks_of_validate hv
  refine {
    checked := ownerOfStack?_eq h
    owner := fun _ _ => ownerOfStack_eq_some_iff h hn
    nobody := ?_
    apart := ?_
    saved := ?_ }
  · intro esp
    rw [Option.eq_none_iff_forall_ne_some]
    refine forall_congr' fun pid => ?_
    rw [ne_eq, ownerOfStack_eq_some_iff h hn, not_and, forall_exists_index]
  · intro x y esp hx hy
    have hcount := (h.onStack_iff.mp hx).2.symm.trans (h.onStack_iff.mp hy).2
    exact Fin.ext (Nat.succ.inj hcount)
  · intro pid p context hp hon
    rw [hn pid p hp]
    exact (ownerOfStack_eq_some_iff h hn).mpr ⟨⟨p, hp⟩, hon⟩

end ProcessTable

theorem ProcessTable.ownsStacks_tableCalls :
    let t := (empty Sample.outermost).run Sample.tableCalls
    t.layout.validate = .ok () ∧ t.Named ∧ t.OwnsStacks := by
  have hv : ((empty Sample.outermost).run Sample.tableCalls).layout.validate = .ok () := rfl
  have ha : (empty Sample.outermost).AllowsAll Sample.tableCalls :=
    ⟨trivial, trivial, ⟨_, rfl⟩, trivial, trivial, trivial, trivial⟩
  have hn := ((Lawful.empty Sample.outermost).run ha).named
  exact ⟨hv, hn, ownsStacks hv hn⟩

end TerminalKernel
