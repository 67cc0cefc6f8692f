import TerminalKernel.Kernel.Display
import TerminalKernel.Proofs.Turns

namespace TerminalKernel.Kernel

variable {M D F : Type} {k : Kernel M D F} {left : TerminalId}

/-- The spaces in which every slot has the map of its process. -/
def rehomed (k : Kernel M D F) : SpaceArena :=
  { k.spaces with process := Vector.ofFn k.homeMap }

theorem slotMap_rehomed (pid : ProcessId) : k.rehomed.slotMap pid = k.homeMap pid := by
  simp [rehomed, SpaceArena.slotMap, Vector.get_eq_getElem]

def refit (p : ProcessRecord) (k : Kernel M D F) : Kernel M D F :=
  { k with
    spaces := k.spaces.give p.pid
      (k.layout.processMap (k.spaces.tableLink (.process p.pid)) p.pid (k.videoTarget p.terminal)) }

/-- A process has the map that it needs while another terminal is on screen. -/
structure Dated (left : TerminalId) (k : Kernel M D F) (p : ProcessRecord) : Prop where
  space : p.space = some (.process p.pid)
  given : k.spaces.isGiven p.pid = true
  map : k.spaces.slotMap p.pid = k.layout.processMap (k.spaces.tableLink (.process p.pid)) p.pid
    ({ k with displayed := left }.videoTarget p.terminal)

def movesActive (left : TerminalId) (k : Kernel M D F) (p : ProcessRecord) : Bool :=
  (k.movedVideo left k.displayed p).isSome && decide (k.spaces.active = .process p.pid)

theorem moveVideo_eq (hf : k.layout.Fits) {p : ProcessRecord} (hp : k.Dated left p) :
    k.moveVideo left k.displayed p = (k.movesActive left p, k.refit p) := by
  have hremap := SpaceArena.remap_video hf hp.given hp.map
  unfold moveVideo movesActive
  rw [hp.space]
  by_cases he : p.terminal = k.displayed
  · have hm : k.movedVideo left k.displayed p = some k.layout.video := by
      rw [movedVideo, if_pos he]
    have hv : k.videoTarget p.terminal = k.layout.video := by rw [videoTarget, if_pos he]
    simp only [hm, hremap, refit, hv, Option.isSome_some, Bool.true_and]
  · have hv : k.videoTarget p.terminal = k.layout.videoBuffer p.terminal := by
      rw [videoTarget, if_neg he]
    by_cases hl : p.terminal = left
    · have hm : k.movedVideo left k.displayed p = some (k.layout.videoBuffer p.terminal) := by
        rw [movedVideo, if_neg he, if_pos hl, hl]
      simp only [hm, hremap, refit, hv, Option.isSome_some, Bool.true_and]
    · have hm : k.movedVideo left k.displayed p = none := by
        rw [movedVideo, if_neg he, if_neg hl]
      have hold : ({ k with displayed := left } : Kernel M D F).videoTarget p.terminal =
          k.layout.videoBuffer p.terminal := by rw [videoTarget, if_neg hl]
      have hmap := hp.map
      rw [hold, ← hv] at hmap
      simp only [hm, refit, ← hmap, SpaceArena.give_slotMap hp.given, Option.isSome_none,
        Bool.false_and]

theorem Dated.refit {p q : ProcessRecord} (hq : k.Dated left q) (hne : q.pid ≠ p.pid) :
    (k.refit p).Dated left q := by
  refine ⟨hq.space, ?_, ?_⟩
  · refine (k.spaces.isGiven_give p.pid q.pid _).trans ?_
    rw [if_neg hne]
    exact hq.given
  · refine (k.spaces.slotMap_give p.pid q.pid _).trans ?_
    rw [if_neg hne]
    exact hq.map

theorem moveVideos_eq (hf : k.layout.Fits) {ps : List ProcessRecord}
    (hn : (ps.map ProcessRecord.pid).Nodup) (hps : ∀ p ∈ ps, k.Dated left p) :
    k.moveVideos left k.displayed ps =
      (ps.any (k.movesActive left), ps.foldl (fun k p => k.refit p) k) := by
  induction ps generalizing k with
  | nil => rfl
  | cons p ps ih =>
    rw [List.map_cons, List.nodup_cons] at hn
    have hrest : ∀ q ∈ ps, (k.refit p).Dated left q := by
      intro q hq
      have hne : q.pid ≠ p.pid := fun he => hn.1 (he ▸ List.mem_map_of_mem hq)
      exact (hps q (List.mem_cons_of_mem p hq)).refit hne
    have hm : (k.refit p).moveVideos left k.displayed ps = _ := ih (k := k.refit p) hf hn.2 hrest
    simp only [moveVideos, moveVideo_eq hf (hps p (List.mem_cons_self ..)), hm]
    rfl

theorem foldl_refit_eq {ps : List ProcessRecord} (hn : (ps.map ProcessRecord.pid).Nodup)
    (hg : ∀ p ∈ ps, k.spaces.isGiven p.pid = true) :
    ∃ a : SpaceArena, ps.foldl (fun k p => k.refit p) k = { k with spaces := a } ∧
      a.kernel = k.spaces.kernel ∧ a.active = k.spaces.active ∧
      a.placement = k.spaces.placement ∧ (∀ x, a.isGiven x = k.spaces.isGiven x) ∧
      (∀ x, x ∉ ps.map ProcessRecord.pid → a.slotMap x = k.spaces.slotMap x) ∧
      ∀ p ∈ ps, a.slotMap p.pid = k.layout.processMap (k.spaces.tableLink (.process p.pid)) p.pid
        (k.videoTarget p.terminal) := by
  induction ps generalizing k with
  | nil => exact ⟨k.spaces, rfl, rfl, rfl, rfl, fun _ => rfl, fun _ _ => rfl, by simp⟩
  | cons p ps ih =>
    rw [List.map_cons, List.nodup_cons] at hn
    have hgive (x : ProcessId) : (k.refit p).spaces.isGiven x = k.spaces.isGiven x := by
      refine (k.spaces.isGiven_give p.pid x _).trans ?_
      split
      case isTrue hx => rw [hx, hg p (List.mem_cons_self ..)]
      case isFalse => rfl
    have hrest : ∀ q ∈ ps, (k.refit p).spaces.isGiven q.pid = true := by
      intro q hq
      rw [hgive]
      exact hg q (List.mem_cons_of_mem p hq)
    obtain ⟨a, ha, hk, hact, hpl, hgiven, hout, hin⟩ := ih (k := k.refit p) hn.2 hrest
    refine ⟨a, ha, hk, hact, hpl, fun x => (hgiven x).trans (hgive x), ?_, ?_⟩
    · intro x hx
      rw [List.map_cons, List.mem_cons, not_or] at hx
      refine (hout x hx.2).trans ((k.spaces.slotMap_give p.pid x _).trans ?_)
      rw [if_neg hx.1]
    · intro q hq
      cases List.mem_cons.mp hq with
      | inl he =>
        rw [he, hout p.pid hn.1]
        refine (k.spaces.slotMap_give p.pid p.pid _).trans ?_
        rw [if_pos rfl]
      | inr hq => exact hin q hq

variable [FileSystem F] {σ : TerminalId → List ProcessId} {entered : TerminalId} {d : D}

theorem Consistent.moveVideos_live (h : k.Consistent σ) (hf : k.layout.Fits) (entered : TerminalId)
    (d : D) :
    { k with devices := d, displayed := entered }.moveVideos k.displayed entered k.processes.live =
      (k.processes.live.any ({ k with devices := d, displayed := entered }.movesActive k.displayed),
        { k with
          devices := d
          displayed := entered
          spaces := { k with devices := d, displayed := entered }.rehomed }) := by
  let k' : Kernel M D F := { k with devices := d, displayed := entered }
  have hn := h.named.nodup_live
  have hold : ∀ p ∈ k.processes.live, k'.Dated k.displayed p := by
    intro p hp
    have hx := h.named.mem_live.mp hp
    exact ⟨(h.launched p.pid p hx).space, h.isGiven hx, h.slotMap hx⟩
  have hgiven : ∀ p ∈ k.processes.live, k'.spaces.isGiven p.pid = true :=
    fun p hp => (hold p hp).given
  obtain ⟨a, ha, hk, hact, hpl, hg, hout, hin⟩ := foldl_refit_eq (k := k') hn hgiven
  have hm := moveVideos_eq (k := k') hf hn hold
  have har : a = k'.rehomed := by
    apply SpaceArena.ext_slots
    · exact hk
    · exact hact
    · exact hpl
    · intro x
      rw [slotMap_rehomed]
      cases hx : k.processes.get? x with
      | none =>
        have hnot : x ∉ k.processes.live.map ProcessRecord.pid := by
          intro hmem
          obtain ⟨p, hp, rfl⟩ := List.mem_map.mp hmem
          have hp' := h.named.mem_live.mp hp
          rw [hx] at hp'
          cases hp'
        have hempty : k'.homeMap x = .empty := by
          have hx' : k'.processes.get? x = none := hx
          rw [homeMap, hx']
        rw [hout x hnot, hempty]
        exact h.slotMap_free hx
      | some p =>
        have hpx : p.pid = x := h.named x p hx
        have hmem : p ∈ k.processes.live := ProcessTable.mem_live.mpr ⟨x, hx⟩
        have hx' : k'.processes.get? x = some p := hx
        rw [homeMap, hx', ← hpx]
        exact hin p hmem
    · intro x
      exact hg x
  rw [ha, har] at hm
  exact hm

variable [Devices D]

def shown (entered : TerminalId) (k : Kernel M D F) : Kernel M D F :=
  let k' : Kernel M D F :=
    { k with
      devices := Devices.showTerminal k.displayed entered k.devices
      displayed := entered }
  { k' with
    spaces := k'.rehomed
    loaded := k.current.map fun (pid : ProcessId) =>
      (k.spaces.directoryAddress (.process pid), k'.homeMap pid) }

theorem Consistent.lookup_rehomed (h : k.Consistent σ) {pid : ProcessId} {p : ProcessRecord}
    (hp : k.processes.get? pid = some p) :
    (k.shown entered).spaces.lookup (.process pid) =
      .ok ({ k with
        devices := Devices.showTerminal k.displayed entered k.devices
        displayed := entered }.homeMap pid) := by
  have hg : (k.shown entered).spaces.isGiven pid = true := h.isGiven hp
  rw [SpaceArena.lookup_process hg]
  exact congrArg Except.ok (slotMap_rehomed pid)

theorem Consistent.shown (h : k.Consistent σ) (entered : TerminalId) {pid : ProcessId}
    (hc : k.current = some pid) :
    (k.shown entered).Consistent σ := by
  obtain ⟨p, hp⟩ := h.current_live hc
  have hactive : (k.shown entered).spaces.active = .process pid := by
    have ha := h.active
    rw [hc] at ha
    exact ha
  refine ⟨h.layout, h.stacked, h.terminals, ?_, h.given, ?_, h.active, ?_⟩
  · intro x q hx
    exact (h.launched x q hx).of_eq rfl rfl
  · intro x
    exact slotMap_rehomed x
  · refine ⟨_, (congrArg _ hactive).trans (h.lookup_rehomed hp), ?_⟩
    rw [hactive]
    change Option.map _ k.current = _
    rw [hc]
    rfl

omit [Devices D] in
theorem Consistent.loaded_of_not_moved (h : k.Consistent σ) {pid : ProcessId}
    (hc : k.current = some pid)
    (hm : k.processes.live.any
      ({ k with devices := d, displayed := entered }.movesActive k.displayed) = false) :
    k.loaded = some (k.spaces.directoryAddress (.process pid),
      { k with devices := d, displayed := entered }.homeMap pid) := by
  obtain ⟨p, hp⟩ := h.current_live hc
  have hpid : p.pid = pid := h.named pid p hp
  have ha : k.spaces.active = .process pid := by
    have ha := h.active
    rw [hc] at ha
    exact ha
  have hstay := List.any_eq_false.mp hm p (ProcessTable.mem_live.mpr ⟨pid, hp⟩)
  have hnone : { k with devices := d, displayed := entered }.movedVideo k.displayed entered p =
      none := by
    rw [← Option.not_isSome_iff_eq_none]
    intro hs
    apply hstay
    rw [movesActive, Bool.and_eq_true]
    exact ⟨hs, by rw [decide_eq_true_eq, hpid]; exact ha⟩
  have hv : { k with devices := d, displayed := entered }.videoTarget p.terminal =
      k.videoTarget p.terminal := by
    unfold movedVideo at hnone
    split at hnone
    case isTrue => cases hnone
    case isFalse he =>
      split at hnone
      case isTrue => cases hnone
      case isFalse hl => simp only [videoTarget, if_neg he, if_neg hl]
  obtain ⟨m, hlook, hload⟩ := h.loaded
  rw [ha, h.lookup hp, h.slotMap hp, Except.ok.injEq] at hlook
  refine hload.trans ?_
  rw [ha, ← hlook]
  simp only [homeMap, hp, hv]

variable [Machine M]

theorem Consistent.switchTerminalLocked_eq (h : k.Consistent σ) (hf : k.layout.Fits)
    (hn : ∀ t, σ t ≠ []) {pid : ProcessId} (hc : k.current = some pid)
    (hne : k.displayed ≠ entered) (interrupted : Option SavedContext) :
    ∃ calls, (calls = [] ∨
        calls = [MachineCall.loadPageDirectory (k.spaces.directoryAddress (.process pid))]) ∧
      k.switchTerminalLocked entered interrupted =
        (.proceed, ((k.shown entered).performAll calls).record
          (.terminalSwitched k.displayed entered)) := by
  obtain ⟨p, hp⟩ := h.current_live hc
  let k₁ : Kernel M D F :=
    { k with
      devices := Devices.showTerminal k.displayed entered k.devices
      displayed := entered }
  let k₂ : Kernel M D F := { k₁ with spaces := k₁.rehomed }
  have ha : k₁.rehomed.active = .process pid := by
    have ha := h.active
    rw [hc] at ha
    exact ha
  have hload : (k.shown entered).loaded =
      some (k.spaces.directoryAddress (.process pid), k₁.homeMap pid) := by
    change Option.map _ k.current = _
    rw [hc]
    rfl
  have hm := h.moveVideos_live hf entered (Devices.showTerminal k.displayed entered k.devices)
  have hfinal : ∃ calls, (calls = [] ∨
      calls = [MachineCall.loadPageDirectory (k.spaces.directoryAddress (.process pid))]) ∧
      (if k.processes.live.any (k₁.movesActive k.displayed) then
        k₂.restoreSpace k₁.rehomed.active else k₂) = (k.shown entered).performAll calls := by
    cases hmoved : k.processes.live.any (k₁.movesActive k.displayed) with
    | true =>
      have hlook : k₂.spaces.lookup k₁.rehomed.active = .ok (k₁.homeMap pid) := by
        rw [ha]
        exact h.lookup_rehomed hp
      refine ⟨[.loadPageDirectory (k.spaces.directoryAddress k₁.rehomed.active)],
        Or.inr (by rw [ha]), ?_⟩
      rw [if_pos rfl, restoreSpace_eq hlook, performAll, hload, ← ha]
      rfl
    | false =>
      have hold := h.loaded_of_not_moved hc hmoved
      refine ⟨[], Or.inl rfl, ?_⟩
      rw [if_neg (by simp), performAll, hload, ← hold]
      rfl
  obtain ⟨calls, hcalls, hfinal⟩ := hfinal
  refine ⟨calls, hcalls, ?_⟩
  have hlive : 0 < ((((k.shown entered).performAll calls).record
      (.terminalSwitched k.displayed entered)).terminals.get entered).live := by
    rw [(sameCore_record ..).terminals]
    change 0 < (k.terminals.get entered).live
    rw [h.terminals]
    exact List.length_pos_of_ne_nil (hn entered)
  simp only [switchTerminalLocked, if_neg hne, hm]
  rw [hfinal, if_pos hlive]

end TerminalKernel.Kernel
