import TerminalKernel.Kernel.Interrupt
import TerminalKernel.Proofs.Bootable

namespace TerminalKernel

namespace Layout

variable {l : Layout} {start : UInt32} {n : Nat}

/-- Each of the `n` bytes from an address on has an address of the program window. -/
def Encloses (l : Layout) (start : UInt32) (n : Nat) : Prop :=
  ∀ i < n, ∃ a : UInt32, a.toNat = start.toNat + i ∧ l.inProgramWindow a = true

theorem encloses_zero : l.Encloses start 0 := fun _ hi => absurd hi (Nat.not_lt_zero _)

theorem Encloses.mono {n' : Nat} (h : l.Encloses start n) (hn : n' ≤ n) : l.Encloses start n' :=
  fun i hi => h i (Nat.lt_of_lt_of_le hi hn)

theorem encloses_one : l.Encloses start 1 ↔ l.inProgramWindow start = true := by
  constructor
  · intro h
    obtain ⟨a, ha, hw⟩ := h 0 Nat.one_pos
    rwa [← UInt32.toNat_inj.mp ha]
  · intro hw i hi
    obtain rfl : i = 0 := Nat.lt_one_iff.mp hi
    exact ⟨start, rfl, hw⟩

theorem Valid.encloses_iff (h : l.Valid) (hn : 0 < n) :
    l.Encloses start n ↔
      l.programWindow.val.toNat ≤ start.toNat ∧ start.toNat + n ≤ l.programWindowEnd.toNat := by
  have hlt : l.programWindowEnd.toNat < 4294967296 := l.programWindowEnd.toNat_lt
  constructor
  · intro he
    obtain ⟨a, ha, hw⟩ := he 0 hn
    obtain ⟨b, hb, hw'⟩ := he (n - 1) (Nat.sub_one_lt_of_lt hn)
    have hfirst := ((h.inProgramWindow_iff a).mp hw).1
    have hlast := ((h.inProgramWindow_iff b).mp hw').2
    rw [h.programWindowEnd_toNat]
    omega
  · rintro ⟨hle, hend⟩ i hi
    have hnat : (UInt32.ofNat (start.toNat + i)).toNat = start.toNat + i :=
      UInt32.toNat_ofNat_of_lt' (Nat.lt_trans (by omega) hlt)
    refine ⟨_, hnat, (h.inProgramWindow_iff _).mpr ?_⟩
    rw [h.programWindowEnd_toNat] at hend
    omega

theorem Valid.admits_iff (h : l.Valid) {length : UInt32} (hn : length ≠ 0) :
    Gate.admits l start length = true ↔ l.Encloses start length.toNat := by
  have hpos : 0 < length.toNat := Nat.pos_of_ne_zero fun h0 => hn (UInt32.toNat_inj.mp h0)
  have hlt : l.programWindowEnd.toNat < 4294967296 := l.programWindowEnd.toNat_lt
  have hend := h.programWindowEnd_toNat
  rw [h.encloses_iff hpos, Gate.admits, Bool.and_eq_true, Bool.and_eq_true, decide_eq_true_eq,
    decide_eq_true_eq, h.inProgramWindow_iff]
  change (_ < 4294967296 ∧ _) ∧ _ ↔ _
  omega

theorem Valid.encloses_word_iff (h : l.Valid) (hs : l.Encloses start 1) :
    l.Encloses start 4 ↔ start.toNat + 4 ≤ l.programWindowEnd.toNat := by
  rw [h.encloses_iff (by decide), and_iff_right ((h.encloses_iff (by decide)).mp hs).1]

end Layout

namespace UserMemory

variable {l : Layout} {start : UInt32} {m m' : UserMemory}

theorem load_congr {n : Nat} (he : l.Encloses start n)
    (h : ∀ a : UInt32, l.inProgramWindow a = true → m.byte a.toNat = m'.byte a.toNat) :
    m.load start n = m'.load start n := by
  refine List.map_congr_left fun i hi => ?_
  obtain ⟨a, ha, hw⟩ := he i (List.mem_range.mp hi)
  rw [← ha]
  exact h a hw

/-- Nothing is stored outside the program window. -/
theorem byte_store_of_not_enclosed {bs : Bytes} (he : l.Encloses start bs.length) {x : Nat}
    (hx : ∀ a : UInt32, a.toNat = x → l.inProgramWindow a = false) :
    (m.store start bs).byte x = m.byte x := by
  simp only [store]
  split
  case isFalse => rfl
  case isTrue hle =>
    have hlen : bs.length ≤ x - start.toNat := by
      by_contra hlt
      obtain ⟨a, ha, hw⟩ := he (x - start.toNat) (Nat.lt_of_not_le hlt)
      rw [Nat.add_sub_cancel' hle] at ha
      rw [hx a ha] at hw
      cases hw
    rw [Array.getElem?_eq_none (by simpa using hlen), Option.getD_none]

end UserMemory

namespace Kernel

variable {M D F : Type} {k : Kernel M D F} {dest : UInt32}

def videoAnswer (k : Kernel M D F) (dest : UInt32) : Int :=
  if k.current.isSome ∧ k.layout.inProgramWindow dest = true then k.layout.video.val.toNat
  else KernelError.sentinel

theorem videoMap_eq (k : Kernel M D F) (dest : UInt32) :
    k.videoMap dest = match k.current with
      | none => .error .noCurrentProcess
      | some _ =>
        if k.layout.inProgramWindow dest then .ok k.layout.video.val.toNat
        else .error .badArgument := by
  unfold videoMap requireCurrent
  cases k.current <;> rfl

theorem sentinel_ne_video : KernelError.sentinel ≠ k.layout.video.val.toNat := by
  change (-1 : Int) ≠ _
  omega

theorem videoAnswer_eq_video_iff :
    k.videoAnswer dest = k.layout.video.val.toNat ↔
      k.current.isSome ∧ k.layout.inProgramWindow dest = true := by
  unfold videoAnswer
  split
  case isTrue h => exact iff_of_true rfl h
  case isFalse h => exact iff_of_false sentinel_ne_video h

theorem answerNat_videoMap (hv : k.layout.Valid) :
    answerNat (k.videoMap dest) = .answer (k.videoAnswer dest) := by
  have hlt := hv.video_lt
  rw [videoMap_eq, videoAnswer]
  cases k.current with
  | none => rfl
  | some pid =>
    simp only [Option.isSome_some, true_and]
    split
    case isTrue =>
      have hs : KernelError.syscallValue (.ok k.layout.video.val.toNat) =
          k.layout.video.val.toNat := by
        rw [KernelError.syscallValue, if_pos ⟨by omega, by omega⟩]
      exact congrArg Transfer.answer hs
    case isFalse => rfl

end Kernel

namespace Gate

variable {D F : Type} [Devices D] [FileSystem F] {g : BareKernel D F}
  {number argument start length esp ebp dest : UInt32}

theorem syscallEntry_of_not_encloses (hv : g.kernel.layout.Valid)
    (h : ¬g.kernel.layout.Encloses start length.toNat) :
    g.syscallEntry number argument start length esp ebp =
      (.returned (some KernelError.sentinel), g) := by
  have hn : length ≠ 0 := by
    rintro rfl
    exact h Layout.encloses_zero
  refine if_pos (Or.inr ⟨hn, ?_⟩)
  rw [Bool.not_eq_true', ← Bool.not_eq_true, hv.admits_iff hn]
  exact h

theorem syscallEntry_of_encloses (hv : g.kernel.layout.Valid) (hr : g.registered = true)
    (h : g.kernel.layout.Encloses start length.toNat) :
    g.syscallEntry number argument start length esp ebp =
      g.enterWith esp ebp fun context k =>
        k.syscallBuffer number argument start length context := by
  refine if_neg ?_
  rintro (hr' | ⟨hn, ha⟩)
  · rw [hr] at hr'
    cases hr'
  · rw [(hv.admits_iff hn).mpr h] at ha
    cases ha

theorem byte_syscallBuffer {k : Kernel Processor D F} {context : SavedContext}
    (h : k.layout.Encloses start length.toNat) {reply : Reply} {k' : Kernel Processor D F}
    (hk : k.syscallRaw number argument (k.machine.memory.load start length.toNat) context =
      (reply, k'))
    (hlen : ∀ bs, reply.buffer = some bs → bs.length ≤ length.toNat) {x : Nat}
    (hx : ∀ a : UInt32, a.toNat = x → k.layout.inProgramWindow a = false) :
    (k.syscallBuffer number argument start length context).2.machine.memory.byte x =
      k'.machine.memory.byte x := by
  simp only [Kernel.syscallBuffer, hk]
  cases hb : reply.buffer with
  | none => rfl
  | some bs => exact UserMemory.byte_store_of_not_enclosed (h.mono (hlen bs hb)) hx

theorem syscallEntry_videoMap (hv : g.kernel.layout.Valid) (hr : g.registered = true)
    (h : g.kernel.layout.Encloses start length.toNat) (hs : (stubContext esp ebp).isSome) :
    g.syscallEntry 8 dest start length esp ebp =
      (.returned (some (g.kernel.videoAnswer dest)), g) := by
  obtain ⟨context, hc⟩ := Option.isSome_iff_exists.mp hs
  have hb : g.kernel.syscallBuffer 8 dest start length context =
      (.answer (g.kernel.videoAnswer dest), g.kernel) :=
    Prod.ext (Kernel.answerNat_videoMap hv) rfl
  have he : g.enter (fun k => k.syscallBuffer 8 dest start length context) =
      (some (.answer (g.kernel.videoAnswer dest)), g) := by
    rw [enter, if_pos hr, hb]
  rw [syscallEntry_of_encloses hv hr h, enterWith, hc]
  simp only [he, complete]

def GivesVideo (g : BareKernel D F) (dest start length esp ebp : UInt32) : Prop :=
  (g.syscallEntry 8 dest start length esp ebp).1 =
    .returned (some g.kernel.layout.video.val.toNat)

theorem givesVideo_iff (hv : g.kernel.layout.Valid) :
    g.GivesVideo dest start length esp ebp ↔
      g.registered = true ∧ g.kernel.layout.Encloses start length.toNat ∧
        (stubContext esp ebp).isSome ∧ g.kernel.current.isSome ∧
          g.kernel.layout.Encloses dest 1 := by
  unfold GivesVideo
  by_cases hr : g.registered = true
  case neg =>
    have hn : g.syscallEntry 8 dest start length esp ebp =
        (.returned (some KernelError.sentinel), g) := if_pos (Or.inl (by simpa using hr))
    rw [hn]
    exact iff_of_false (by simpa using Kernel.sentinel_ne_video) fun h => hr h.1
  by_cases he : g.kernel.layout.Encloses start length.toNat
  case neg =>
    rw [syscallEntry_of_not_encloses hv he]
    exact iff_of_false (by simpa using Kernel.sentinel_ne_video) fun h => he h.2.1
  by_cases hs : (stubContext esp ebp).isSome
  case neg =>
    have hn : stubContext esp ebp = none := by simpa using hs
    rw [syscallEntry_of_encloses hv hr he, enterWith, hn]
    simp only [hr, if_true, fail]
    exact iff_of_false (by simp) fun h => Bool.false_ne_true h.2.2.1
  rw [syscallEntry_videoMap hv hr he hs]
  simp [hr, he, hs, Kernel.videoAnswer_eq_video_iff, Layout.encloses_one]

/-- User memory is reached inside the program window only, but for the place of the video
address. -/
structure ChecksRanges (g : BareKernel D F) : Prop where
  admits : ∀ start length : UInt32, length ≠ 0 →
    (Gate.admits g.kernel.layout start length = true ↔
      g.kernel.layout.Encloses start length.toNat)
  refuses : ∀ number argument start length esp ebp : UInt32,
    ¬g.kernel.layout.Encloses start length.toNat →
      g.syscallEntry number argument start length esp ebp =
        (.returned (some KernelError.sentinel), g)
  accepts : ∀ number argument start length esp ebp : UInt32, g.registered = true →
    g.kernel.layout.Encloses start length.toNat →
      g.syscallEntry number argument start length esp ebp =
        g.enterWith esp ebp fun context k =>
          k.syscallBuffer number argument start length context
  loads : ∀ start length : UInt32, g.kernel.layout.Encloses start length.toNat →
    ∀ m : UserMemory, (∀ a : UInt32, g.kernel.layout.inProgramWindow a = true →
      g.kernel.machine.memory.byte a.toNat = m.byte a.toNat) →
        g.kernel.machine.memory.load start length.toNat = m.load start length.toNat
  stores : ∀ (number argument start length : UInt32) (context : SavedContext) (reply : Reply)
    (k : Kernel Processor D F), g.kernel.layout.Encloses start length.toNat →
      g.kernel.syscallRaw number argument (g.kernel.machine.memory.load start length.toNat)
        context = (reply, k) →
      (∀ bs, reply.buffer = some bs → bs.length ≤ length.toNat) →
      ∀ x, (∀ a : UInt32, a.toNat = x → g.kernel.layout.inProgramWindow a = false) →
        (g.kernel.syscallBuffer number argument start length context).2.machine.memory.byte x =
          k.machine.memory.byte x
  video : ∀ dest start length esp ebp : UInt32, g.GivesVideo dest start length esp ebp ↔
    g.registered = true ∧ g.kernel.layout.Encloses start length.toNat ∧
      (stubContext esp ebp).isSome ∧ g.kernel.current.isSome ∧ g.kernel.layout.Encloses dest 1
  /-- All four bytes are in it, save where fewer than four are left. -/
  word : ∀ dest start length esp ebp : UInt32, g.GivesVideo dest start length esp ebp →
    (g.kernel.layout.Encloses dest 4 ↔ dest.toNat + 4 ≤ g.kernel.layout.programWindowEnd.toNat)

theorem checksRanges (h : g.kernel.layout.validate = .ok ()) : g.ChecksRanges := by
  have hv := Layout.valid_of_validate h
  exact {
    admits := fun _ _ => hv.admits_iff
    refuses := fun _ _ _ _ _ _ => syscallEntry_of_not_encloses hv
    accepts := fun _ _ _ _ _ _ => syscallEntry_of_encloses hv
    loads := fun _ _ he _ => UserMemory.load_congr he
    stores := fun _ _ _ _ _ _ _ he hk hlen _ => byte_syscallBuffer he hk hlen
    video := fun _ _ _ _ _ => givesVideo_iff hv
    word := fun _ _ _ _ _ hg => hv.encloses_word_iff ((givesVideo_iff hv).mp hg).2.2.2.2 }

end Gate

def Sample.bare : Kernel Processor DeviceRecorder FileImage := .fresh {} {} shellFiles {} {}

theorem Sample.boot_bare : ∃ first k, Sample.bare.boot = (.ok first, k) ∧ k.layout = {} ∧
    k.layout.validate = .ok () ∧ k.current.isSome := by
  obtain ⟨first, k, hb⟩ : ∃ first k, Sample.bare.boot = (.ok first, k) :=
    boot_fresh _ _ rfl ⟨Layout.valid_of_validate rfl, by decide⟩ rfl rfl
  have hu := Kernel.unbooted_fresh ({} : Processor) ({} : DeviceRecorder) shellFiles {} {}
  obtain ⟨-, pid, -, -, hcurrent, -⟩ := Kernel.boot_enters hu hb
  have hl : k.layout = {} := (Kernel.boot_fixed hu hb).2
  refine ⟨first, k, hb, hl, ?_, Option.isSome_of_eq_some hcurrent⟩
  rw [hl]
  rfl

namespace Gate

theorem checksRanges_bare : ∃ first k, Sample.bare.boot = (.ok first, k) ∧
    k.layout.validate = .ok () ∧ ChecksRanges { kernel := k, registered := true } := by
  obtain ⟨first, k, hb, -, hv, -⟩ := Sample.boot_bare
  exact ⟨first, k, hb, hv, checksRanges hv⟩

/-- After a boot the shell gets the video address for a place that ends behind the window. -/
theorem word_beyond_window : ∃ first k, Sample.bare.boot = (.ok first, k) ∧
    k.layout.validate = .ok () ∧
      GivesVideo { kernel := k, registered := true } 0x83FFFFD 0 0 0x7FFE00 0x7FFE08 ∧
        ¬k.layout.Encloses 0x83FFFFD 4 := by
  obtain ⟨first, k, hb, hl, hv, hcurrent⟩ := Sample.boot_bare
  have hfirst : k.layout.Encloses 0x83FFFFD 1 := by
    rw [hl, Layout.encloses_one]
    decide
  refine ⟨first, k, hb, hv, ?_, ?_⟩
  · exact (givesVideo_iff (Layout.valid_of_validate hv)).mpr
      ⟨rfl, Layout.encloses_zero, by decide, hcurrent, hfirst⟩
  · rw [(Layout.valid_of_validate hv).encloses_word_iff hfirst, hl]
    decide

end Gate

end TerminalKernel
