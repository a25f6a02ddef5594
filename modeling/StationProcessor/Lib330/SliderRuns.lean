import StationProcessor.Lib.SlidingWindow
import StationProcessor.Lib330.Slider

/-!
# Runs of the sliding window

The digitizer numbers its packets without bound and sends the last 16 bits of a number. Whatever
of them comes in, in any order and more than once, the packets that are processed are those from
the first on, one after another; and an acknowledgement names exactly what was stored when it was
made.
-/

namespace StationProcessor

namespace Lib330

/-- Packet `n` of the stream. -/
def packet {β : Type*} (stream : ℕ → β) (n : ℕ) : DataPacket β := ⟨UInt16.ofNat n, stream n⟩

/-- An event with another kind of packets. -/
def SliderEvent.map {α β : Type*} (f : α → β) : SliderEvent α → SliderEvent β
  | .data x => .data (f x)
  | .timer => .timer
  | .dopen => .dopen
  | .state libstate => .state libstate
  | .freeze freezeTimer => .freeze freezeTimer
  | .slog log => .slog log

variable {β : Type*} {after : List (DataPacket β) → LibState} {stream : ℕ → β} {first n : ℕ}
  {q330 : Slider β} {w : SlidingWindow winBufs}

lemma winBufs_eq : winBufs = 128 := rfl

/-! ### Sequences -/

lemma pktidx_ofNat (n : ℕ) : pktidx (UInt16.ofNat n) = Fin.ofNat 256 n := by
  rw [Fin.ext_iff]
  simp [pktidx, Nat.mod_mod_of_dvd]

lemma ofNat_add_one (n : ℕ) : UInt16.ofNat n + 1 = UInt16.ofNat (n + 1) := by
  simp

/-- The comparison with the upper end of the window is right for packets that are near. -/
lemma insideWindow_ofNat {next : ℕ} (h : next ≤ n + 65408) (h' : n < next + 65536) :
    insideWindow (UInt16.ofNat next) (UInt16.ofNat n) = true ↔
      next ≤ n ∧ n < next + winBufs := by
  have hserial := Serial.within_iff (M := 65536) (W := 127) (by norm_num) (by norm_num)
    (show next + 127 < n + 65536 by omega) h'
  have hhw : (UInt16.ofNat next + winWrap).toNat = (next % 65536 + 127) % 65536 := by
    simp [winWrap, UInt16.toNat_add]
  rw [Serial.Within] at hserial
  simp only [insideWindow, UInt16.lt_iff_toNat_lt, UInt16.le_iff_toNat_le, hhw,
    UInt16.toNat_ofNat']
  have hwin := winBufs_eq
  norm_num at hserial ⊢
  split_ifs at hserial ⊢
  · rw [hserial]
    omega
  · rw [hserial]
    omega

/-! ### What the buffers hold -/

/-- The buffers hold the packets of the window, and the packets before it were processed. -/
structure Tracks (stream : ℕ → β) (first : ℕ) (q330 : Slider β) (w : SlidingWindow winBufs) :
    Prop where
  next : w.next = first + q330.processed.length
  lastPacket : q330.lastPacket = UInt16.ofNat w.next
  processed : q330.processed = (List.range' first q330.processed.length).map (packet stream)
  held : ∀ n ∈ w.held, q330.pktBufs (Fin.ofNat 256 n) = ⟨true, packet stream n⟩
  valid : ∀ i, (q330.pktBufs i).valid = true → ∃ n ∈ w.held, Fin.ofNat 256 n = i

/-- Numbers near the next one are in different buffers. -/
lemma eq_of_slot_eq {next m n : ℕ} (hm : next ≤ m) (hm' : m < next + 256) (hn : next ≤ n)
    (hn' : n < next + 256) (h : Fin.ofNat 256 m = Fin.ofNat 256 n) : m = n := by
  refine Serial.eq_of_mod_eq hm hm' hn hn' ?_
  simpa [Fin.ext_iff] using h

lemma Tracks.resetLink (hfirst : q330.log.dataseq = UInt16.ofNat first) :
    Tracks stream first (resetLink q330) (.start winBufs first) where
  next := rfl
  lastPacket := hfirst
  processed := rfl
  held := by simp [SlidingWindow.start]
  valid := by simp [Lib330.resetLink]

/-- Which buffers are filled, from the next packet on. -/
lemma Tracks.valid_iff (h : Tracks stream first q330 w) (hn : w.next ≤ n)
    (hn' : n < w.next + 256) : q330.valid (UInt16.ofNat n) = true ↔ n ∈ w.held := by
  rw [Slider.valid, pktidx_ofNat]
  constructor
  · intro hvalid
    obtain ⟨m, hm, hslot⟩ := h.valid _ hvalid
    obtain ⟨hle, hlt⟩ := w.held_window m hm
    have := winBufs_eq
    rwa [← eq_of_slot_eq hle (by omega) hn hn' hslot]
  · intro hmem
    rw [h.held n hmem]

/-- The fields that a step leaves as they are keep the buffers. -/
lemma Tracks.congr {q330' : Slider β} (h : Tracks stream first q330 w)
    (hlast : q330'.lastPacket = q330.lastPacket) (hbufs : q330'.pktBufs = q330.pktBufs)
    (hprocessed : q330'.processed = q330.processed) : Tracks stream first q330' w where
  next := by rw [hprocessed]; exact h.next
  lastPacket := by rw [hlast]; exact h.lastPacket
  processed := by rw [hprocessed]; exact h.processed
  held := by rw [hbufs]; exact h.held
  valid := by rw [hbufs]; exact h.valid

lemma Tracks.storePacket (h : Tracks stream first q330 w) (hn : w.Accepts n) :
    Tracks stream first (storePacket q330 (packet stream n)) (w.hold n hn) where
  next := h.next
  lastPacket := h.lastPacket
  processed := h.processed
  held := by
    intro m hm
    rw [SlidingWindow.mem_held_hold] at hm
    simp only [Lib330.storePacket, packet, pktidx_ofNat]
    by_cases hmn : Fin.ofNat 256 m = Fin.ofNat 256 n
    · have hwin : w.next ≤ m ∧ m < w.next + winBufs := by
        rcases hm with rfl | hm
        · exact hn
        · exact w.held_window m hm
      have hlt := hn.2
      have := winBufs_eq
      obtain rfl := eq_of_slot_eq hwin.1 (by omega) hn.1 (by omega) hmn
      simp
    · rcases hm with rfl | hm
      · exact absurd rfl hmn
      · rw [Function.update_of_ne hmn]
        exact h.held m hm
  valid := by
    intro i hi
    simp only [Lib330.storePacket, packet, pktidx_ofNat] at hi
    by_cases hin : i = Fin.ofNat 256 n
    · exact ⟨n, (w.mem_held_hold hn).mpr (Or.inl rfl), hin.symm⟩
    · rw [Function.update_of_ne hin] at hi
      obtain ⟨m, hm, rfl⟩ := h.valid i hi
      exact ⟨m, (w.mem_held_hold hn).mpr (Or.inr hm), rfl⟩

variable (after) in
/-- The packet in the buffer of `last_packet` is the next one. -/
lemma Tracks.procInsequence (h : Tracks stream first q330 w) (hnext : w.next ∈ w.held) :
    Tracks stream first (procInsequence after q330) w.release := by
  have hidx : pktidx q330.lastPacket = Fin.ofNat 256 w.next := by
    rw [h.lastPacket, pktidx_ofNat]
  have hbuf := h.held w.next hnext
  refine ⟨?_, ?_, ?_, ?_, ?_⟩
  · simp [Lib330.procInsequence, h.next, add_assoc]
  · simp [Lib330.procInsequence, h.lastPacket]
  · simp only [Lib330.procInsequence, hidx, hbuf, List.length_append, List.length_singleton]
    rw [List.range'_concat, List.map_append, ← h.processed, h.next]
    simp
  · intro m hm
    obtain ⟨hne, hm⟩ := w.mem_held_release.mp hm
    have hslot : Fin.ofNat 256 m ≠ Fin.ofNat 256 w.next := by
      intro heq
      obtain ⟨hle, hlt⟩ := w.held_window m hm
      have := winBufs_eq
      exact hne (eq_of_slot_eq hle (by omega) le_rfl (by omega) heq)
    simp only [Lib330.procInsequence, hidx]
    rw [Function.update_of_ne hslot]
    exact h.held m hm
  · intro i hi
    simp only [Lib330.procInsequence, hidx] at hi
    by_cases hin : i = Fin.ofNat 256 w.next
    · simp [hin] at hi
    · rw [Function.update_of_ne hin] at hi
      obtain ⟨m, hm, rfl⟩ := h.valid i hi
      refine ⟨m, w.mem_held_release.mpr ⟨?_, hm⟩, rfl⟩
      rintro rfl
      exact hin rfl

/-! ### The loop -/

lemma insequenceLoop_succ (rounds : ℕ) (q330 : Slider β) :
    insequenceLoop after (rounds + 1) q330 =
      if q330.valid q330.lastPacket = true then
        if (procInsequence after q330).libstate = .run then
          insequenceLoop after rounds (procInsequence after q330)
        else procInsequence after q330
      else q330 := rfl

variable (after) in
/-- What processing a packet leaves as it is, the loop leaves as it is. -/
lemma insequenceLoop_eq {γ : Type*} (f : Slider β → γ)
    (hf : ∀ q330, f (procInsequence after q330) = f q330) (rounds : ℕ) (q330 : Slider β) :
    f (insequenceLoop after rounds q330) = f q330 := by
  induction rounds generalizing q330 with
  | zero => rfl
  | succ rounds ih =>
    rw [insequenceLoop_succ]
    split_ifs
    · rw [ih, hf]
    · exact hf q330
    · rfl

/-- A window whose next numbers were given on. -/
structure Released (w w' : SlidingWindow winBufs) : Prop where
  next_le : w.next ≤ w'.next
  has : ∀ m, w'.Has m ↔ w.Has m

lemma Released.refl (w : SlidingWindow winBufs) : Released w w := ⟨le_rfl, fun _ => Iff.rfl⟩

variable (after) in
/-- The loop processes packets that are held and stops at the first that is not, unless processing
one of them ends the running state. -/
lemma Tracks.insequenceLoop (h : Tracks stream first q330 w) {rounds : ℕ}
    (hrounds : w.held.card < rounds) :
    ∃ w', Tracks stream first (insequenceLoop after rounds q330) w' ∧ Released w w' ∧
      (q330.libstate = .run → (insequenceLoop after rounds q330).libstate = .run →
        w'.next ∉ w'.held) := by
  induction rounds generalizing q330 w with
  | zero => omega
  | succ rounds ih =>
    have hvalid := h.valid_iff (n := w.next) le_rfl (by omega)
    rw [← h.lastPacket] at hvalid
    by_cases hnext : w.next ∈ w.held
    · have htracks := h.procInsequence after hnext
      have hstep : Released w w.release := ⟨by simp, fun m => w.has_release hnext⟩
      have hcard : w.release.held.card < rounds := by
        have := Finset.card_erase_of_mem hnext
        have := Finset.card_pos.mpr ⟨_, hnext⟩
        simp only [SlidingWindow.release]
        omega
      rw [insequenceLoop_succ, if_pos (hvalid.mpr hnext)]
      split_ifs with hrun
      · obtain ⟨w', htracks', hreleased, hend⟩ := ih htracks hcard
        refine ⟨w', htracks', ⟨hstep.next_le.trans hreleased.next_le, fun m => ?_⟩,
          fun _ => hend hrun⟩
        rw [hreleased.has, hstep.has]
      · exact ⟨w.release, htracks, hstep, fun _ hrun' => absurd hrun' hrun⟩
    · rw [insequenceLoop_succ, if_neg (fun hv => hnext (hvalid.mp hv))]
      exact ⟨w, h, .refl w, fun _ _ => hnext⟩

/-- The window holds fewer packets than there are buffers. -/
lemma card_held_lt (w : SlidingWindow winBufs) : w.held.card < 256 := by
  have hsub : w.held ⊆ Finset.Ico w.next (w.next + winBufs) := by
    intro n hn
    exact Finset.mem_Ico.mpr (w.held_window n hn)
  have := Finset.card_le_card hsub
  have := winBufs_eq
  rw [Nat.card_Ico] at *
  omega

lemma insequenceLoop_run (hafter : ∀ ps, after ps = .run) (hrun : q330.libstate = .run)
    (rounds : ℕ) : (insequenceLoop after rounds q330).libstate = .run := by
  induction rounds generalizing q330 with
  | zero => exact hrun
  | succ rounds ih =>
    rw [insequenceLoop_succ]
    split_ifs with _ hproc
    · exact ih hproc
    · exact absurd (hafter _) hproc
    · exact hrun

/-! ### Acknowledgements -/

/-- The acknowledgement of what a state holds. -/
def dackOf (q330 : Slider β) : Dataout := .dack (q330.lastPacket - 1) (ackMap q330)

lemma dackOf_congr {q330' : Slider β} (hlast : q330'.lastPacket = q330.lastPacket)
    (hbufs : q330'.pktBufs = q330.pktBufs) : dackOf q330' = dackOf q330 := by
  simp [dackOf, ackMap, Slider.valid, hlast, hbufs]

variable (after) in
/-- What does not depend on the acknowledgement is as the loop leaves it. -/
lemma sendDack_eq {γ : Type*} (f : Slider β → γ)
    (hf : ∀ (q330 : Slider β) dataout ackCounter ackDelay,
      f { q330 with dataout := dataout, ackCounter := ackCounter, ackDelay := ackDelay } = f q330)
    (q330 : Slider β) : f (sendDack after q330).1 = f (insequenceLoop after 256 q330) := by
  simp only [sendDack, dackOut]
  split_ifs <;> apply hf

variable (after) in
/-- The acknowledgement is made, and either sent or put off. -/
lemma sendDack_sent (q330 : Slider β) :
    (sendDack after q330).1.dataout = some (dackOf (sendDack after q330).1) ∧
    (((sendDack after q330).2 = [dackOf (sendDack after q330).1] ∧
      (sendDack after q330).1.ackDelay = 0) ∨
    ((sendDack after q330).2 = [] ∧ (sendDack after q330).1.ackDelay =
      if q330.ackDelay = 0 then q330.log.ackTo.toNat else q330.ackDelay)) := by
  have hdelay := insequenceLoop_eq after (fun q330 => (q330.ackDelay, q330.log))
    (fun _ => rfl) 256 q330
  simp only [Prod.mk.injEq] at hdelay
  rw [dackOf, sendDack_eq after Slider.lastPacket (fun _ _ _ _ => rfl),
    sendDack_eq after ackMap (fun _ _ _ _ => rfl)]
  simp only [sendDack, dackOut]
  split_ifs with hcnt hzero <;> simp_all [ackMap, Slider.valid]

/-! ### One event -/

/-- A tick only counts the delay down. -/
lemma ackTimer_fst (q330 : Slider β) :
    (ackTimer q330).1 = { q330 with ackDelay := q330.ackDelay - 1 } := by
  simp only [ackTimer, dackOut]
  split_ifs with hzero hone
  · rw [show q330.ackDelay - 1 = q330.ackDelay by omega]
  · simp [hone.1]
  · rfl

lemma sendDopen_fst (q330 : Slider β) :
    (sendDopen q330).1 = { q330 with
      ackCounter := 0
      dataout := if q330.registered = true then some .dopen else q330.dataout } := by
  simp only [sendDopen]
  split_ifs <;> rfl

/-- A packet that is near enough for its sequence to tell where it belongs. -/
def NearPacket (first : ℕ) (q330 : Slider β) (n : ℕ) : Prop :=
  first + q330.processed.length ≤ n + 65408 ∧ n < first + q330.processed.length + 65536

/-- A packet that the window takes. -/
def Takes (first : ℕ) (q330 : Slider β) (n : ℕ) : Prop :=
  q330.Taking ∧ first + q330.processed.length ≤ n ∧
    n < first + q330.processed.length + winBufs

/-- One event of a session, with a packet of the stream. -/
def sessionStep (after : List (DataPacket β) → LibState) (stream : ℕ → β) (q330 : Slider β)
    (event : SliderEvent ℕ) : Slider β × List Dataout :=
  sliderStep after q330 (event.map (packet stream))

/-- A window that took some packets and gave on some. -/
structure Moved (w w' : SlidingWindow winBufs) (took : ℕ → Prop) : Prop where
  next_le : w.next ≤ w'.next
  has : ∀ m, w'.Has m ↔ w.Has m ∨ took m

lemma Moved.refl (w : SlidingWindow winBufs) {took : ℕ → Prop} (h : ∀ m, ¬ took m) :
    Moved w w took := ⟨le_rfl, fun m => by simp [h m]⟩

variable (after) in
/-- Packets that came in sequence are processed before they are acknowledged. -/
lemma Tracks.sendDack (h : Tracks stream first q330 w) :
    ∃ w', Tracks stream first (sendDack after q330).1 w' ∧ Released w w' ∧
      (q330.libstate = .run → (Lib330.sendDack after q330).1.libstate = .run →
        w'.next ∉ w'.held) := by
  obtain ⟨w', htracks, hreleased, hend⟩ := h.insequenceLoop after (card_held_lt w)
  refine ⟨w', htracks.congr ?_ ?_ ?_, hreleased, ?_⟩
  · exact sendDack_eq after Slider.lastPacket (fun _ _ _ _ => rfl) q330
  · exact sendDack_eq after Slider.pktBufs (fun _ _ _ _ => rfl) q330
  · exact sendDack_eq after Slider.processed (fun _ _ _ _ => rfl) q330
  · rw [sendDack_eq after Slider.libstate fun _ _ _ _ => rfl]
    exact hend

/-- What storing a packet leaves as it is, taking one does. -/
lemma takePacket_eq {γ : Type*} (f : Slider β → γ)
    (hf : ∀ (q330 : Slider β) acPackets acSeqerr pktBufs slidestat,
      f { q330 with acPackets := acPackets, acSeqerr := acSeqerr, pktBufs := pktBufs,
                    slidestat := slidestat } = f q330)
    (q330 : Slider β) (packet : DataPacket β) : f (takePacket q330 packet) = f q330 := by
  simp only [takePacket]
  split_ifs
  · exact hf q330 (q330.acPackets + 1) q330.acSeqerr _ _
  · exact hf q330 (q330.acPackets + 1) (q330.acSeqerr + 1) q330.pktBufs q330.slidestat

/-- A packet that is taken is stored; any other leaves the window to what was in it. -/
lemma Tracks.takePacket (h : Tracks stream first q330 w) (hnear : NearPacket first q330 n)
    (htaking : q330.Taking) :
    ∃ w', Tracks stream first (takePacket q330 (packet stream n)) w' ∧ w'.next = w.next ∧
      ∀ m, w'.Has m ↔ w.Has m ∨ m = n ∧ Takes first q330 n := by
  have hinside := insideWindow_ofNat hnear.1 hnear.2
  rw [← h.next, ← h.lastPacket] at hinside
  have htracks : Tracks stream first { q330 with acPackets := q330.acPackets + 1 } w :=
    h.congr rfl rfl rfl
  have htakes : Takes first q330 n ↔ w.next ≤ n ∧ n < w.next + winBufs := by
    rw [Takes, ← h.next]
    exact and_iff_right htaking
  by_cases hgood : insideWindow q330.lastPacket (UInt16.ofNat n) = true
  · have haccepts : w.Accepts n := hinside.mp hgood
    have heq : Lib330.takePacket q330 (packet stream n) = _ := if_pos hgood
    rw [heq]
    refine ⟨w.hold n haccepts, htracks.storePacket haccepts, rfl, fun m => ?_⟩
    rw [w.has_hold, htakes]
    exact ⟨fun hm => hm.symm.imp_right fun hm => ⟨hm, haccepts⟩,
      fun hm => hm.symm.imp_left And.left⟩
  · have heq : Lib330.takePacket q330 (packet stream n) = _ := if_neg hgood
    rw [heq]
    refine ⟨w, htracks.congr rfl rfl rfl, rfl, fun m => ?_⟩
    have hout : ¬ Takes first q330 n := fun ht => hgood (hinside.mpr (htakes.mp ht))
    simp [hout]

variable (after) in
/-- A packet that comes in is taken and processed as far as it is in sequence. -/
lemma Tracks.processData (h : Tracks stream first q330 w) (hnear : NearPacket first q330 n)
    (htaking : q330.Taking) :
    ∃ w', Tracks stream first (processData after q330 (packet stream n)).1 w' ∧
      Moved w w' (fun m => m = n ∧ Takes first q330 n) ∧
      ((Lib330.processData after q330 (packet stream n)).1.libstate = .run →
        w'.next ∉ w'.held) := by
  obtain ⟨w₀, htracks₀, hnext₀, hhas₀⟩ := h.takePacket hnear htaking
  obtain ⟨w', htracks', hreleased, hend⟩ := htracks₀.sendDack after
  have hrun : (Lib330.takePacket q330 (packet stream n)).libstate = .run := by
    rw [takePacket_eq Slider.libstate fun _ _ _ _ _ => rfl]
    exact htaking.2.1
  rw [Lib330.processData, if_pos htaking]
  refine ⟨w', htracks', ⟨hnext₀ ▸ hreleased.next_le, fun m => ?_⟩, hend hrun⟩
  rw [hreleased.has, hhas₀]

variable (after) in
/-- Any event moves the window by what it takes. -/
lemma Tracks.sessionStep (h : Tracks stream first q330 w) (event : SliderEvent ℕ)
    (hnear : ∀ n, event = .data n → NearPacket first q330 n) :
    ∃ w', Tracks stream first (sessionStep after stream q330 event).1 w' ∧
      Moved w w' (fun m => event = .data m ∧ Takes first q330 m) ∧
      ((∀ ps, after ps = .run) → w.next ∉ w.held → w'.next ∉ w'.held) := by
  have hkeep : ∀ {q330' : Slider β}, q330'.lastPacket = q330.lastPacket →
      q330'.pktBufs = q330.pktBufs → q330'.processed = q330.processed →
      (∀ m, ¬ (event = .data m ∧ Takes first q330 m)) →
      ∃ w', Tracks stream first q330' w' ∧
        Moved w w' (fun m => event = .data m ∧ Takes first q330 m) ∧
        ((∀ ps, after ps = .run) → w.next ∉ w.held → w'.next ∉ w'.held) :=
    fun hlast hbufs hprocessed hnone =>
      ⟨w, h.congr hlast hbufs hprocessed, .refl w hnone, fun _ hsettled => hsettled⟩
  cases event with
  | data n =>
    by_cases htaking : q330.Taking
    · obtain ⟨w', htracks, hmoved, hend⟩ := h.processData after (hnear n rfl) htaking
      refine ⟨w', htracks, ⟨hmoved.next_le, fun m => ?_⟩, fun hafter _ => hend ?_⟩
      · rw [hmoved.has, SliderEvent.data.injEq]
        constructor
        · rintro (hm | ⟨rfl, ht⟩)
          · exact Or.inl hm
          · exact Or.inr ⟨rfl, ht⟩
        · rintro (hm | ⟨rfl, ht⟩)
          · exact Or.inl hm
          · exact Or.inr ⟨rfl, ht⟩
      · rw [Lib330.processData, if_pos htaking,
          sendDack_eq after Slider.libstate fun _ _ _ _ => rfl]
        refine insequenceLoop_run hafter ?_ 256
        rw [takePacket_eq Slider.libstate fun _ _ _ _ _ => rfl]
        exact htaking.2.1
    · have heq : Lib330.sessionStep after stream q330 (.data n) = (q330, []) := if_neg htaking
      rw [heq]
      exact hkeep rfl rfl rfl fun m hm => htaking hm.2.1
  | timer =>
    have heq : (Lib330.sessionStep after stream q330 .timer).1 = _ := ackTimer_fst q330
    rw [heq]
    exact hkeep rfl rfl rfl (by simp)
  | dopen =>
    have heq : (Lib330.sessionStep after stream q330 .dopen).1 = _ := sendDopen_fst q330
    rw [heq]
    exact hkeep rfl rfl rfl (by simp)
  | state libstate => exact hkeep rfl rfl rfl (by simp)
  | freeze freezeTimer => exact hkeep rfl rfl rfl (by simp)
  | slog log => exact hkeep rfl rfl rfl (by simp)

/-! ### Sessions -/

/-- A session: the link is reset and events follow. -/
def session (after : List (DataPacket β) → LibState) (stream : ℕ → β) (q330 : Slider β)
    (events : List (SliderEvent ℕ)) : Slider β × List Dataout :=
  sliderRun after (resetLink q330) (events.map (SliderEvent.map (packet stream)))

variable {events : List (SliderEvent ℕ)} {event : SliderEvent ℕ}

@[simp] lemma session_nil (q330 : Slider β) :
    session after stream q330 [] = (resetLink q330, []) := rfl

/-- Every packet of the session is near when it comes in. -/
def Near (after : List (DataPacket β) → LibState) (stream : ℕ → β) (first : ℕ) (q330 : Slider β)
    (events : List (SliderEvent ℕ)) : Prop :=
  ∀ before n, before ++ [.data n] <+: events →
    NearPacket first (session after stream q330 before).1 n

/-- A packet of the session was taken. -/
def Took (after : List (DataPacket β) → LibState) (stream : ℕ → β) (first : ℕ) (q330 : Slider β)
    (events : List (SliderEvent ℕ)) (n : ℕ) : Prop :=
  ∃ before, before ++ [.data n] <+: events ∧
    Takes first (session after stream q330 before).1 n

/-- An acknowledgement made in a session, when at least the packets before `covered` had been
processed: it names the packet before the next one and exactly the later ones that were taken. -/
def Reports (after : List (DataPacket β) → LibState) (stream : ℕ → β) (first : ℕ)
    (q330 : Slider β) (events : List (SliderEvent ℕ)) (covered : ℕ) (sent : Dataout) : Prop :=
  ∃ before acks next, before <+: events ∧
    next = first + (session after stream q330 before).1.processed.length ∧ covered ≤ next ∧
    sent = .dack (UInt16.ofNat next - 1) acks ∧
    ∀ i, 1 ≤ i → i < winBufs →
      (BitMap.bit acks i = true ↔ Took after stream first q330 before (next + (i - 1)))

lemma Reports.mono {covered covered' : ℕ} {sent : Dataout} {events' : List (SliderEvent ℕ)}
    (h : Reports after stream first q330 events covered sent) (hevents : events <+: events')
    (hcovered : covered' ≤ covered) :
    Reports after stream first q330 events' covered' sent := by
  obtain ⟨before, acks, next, hbefore, hnext, hle, hsent, hbits⟩ := h
  exact ⟨before, acks, next, hbefore.trans hevents, hnext, hcovered.trans hle, hsent, hbits⟩

variable (after stream) in
/-- A packet that comes in while data is taken makes a new acknowledgement. -/
lemma sessionStep_data (htaking : q330.Taking) (n : ℕ) :
    (sessionStep after stream q330 (.data n)).1.dataout
      = some (dackOf (sessionStep after stream q330 (.data n)).1) ∧
    (((sessionStep after stream q330 (.data n)).2
        = [dackOf (sessionStep after stream q330 (.data n)).1] ∧
      (sessionStep after stream q330 (.data n)).1.ackDelay = 0) ∨
    ((sessionStep after stream q330 (.data n)).2 = [] ∧
      (sessionStep after stream q330 (.data n)).1.ackDelay =
        if q330.ackDelay = 0 then q330.log.ackTo.toNat else q330.ackDelay)) ∧
    (sessionStep after stream q330 (.data n)).1.log = q330.log ∧
    (sessionStep after stream q330 (.data n)).1.linkRecv = q330.linkRecv := by
  have heq : sessionStep after stream q330 (.data n) = _ := if_pos htaking
  have hdelay := takePacket_eq Slider.ackDelay (fun _ _ _ _ _ => rfl) q330 (packet stream n)
  have hlog := takePacket_eq Slider.log (fun _ _ _ _ _ => rfl) q330 (packet stream n)
  have hlink := takePacket_eq Slider.linkRecv (fun _ _ _ _ _ => rfl) q330 (packet stream n)
  obtain ⟨hout, hsent⟩ := sendDack_sent after (takePacket q330 (packet stream n))
  rw [hdelay, hlog] at hsent
  rw [heq]
  refine ⟨hout, hsent, ?_, ?_⟩
  · rw [sendDack_eq after Slider.log fun _ _ _ _ => rfl,
      insequenceLoop_eq after Slider.log fun _ => rfl, hlog]
  · rw [sendDack_eq after Slider.linkRecv fun _ _ _ _ => rfl,
      insequenceLoop_eq after Slider.linkRecv fun _ => rfl, hlink]

variable (after stream) in
lemma sessionStep_data_idle (htaking : ¬ q330.Taking) (n : ℕ) :
    sessionStep after stream q330 (.data n) = (q330, []) := if_neg htaking

/-- Logical parameters that put an acknowledgement off by at most `ticks`. -/
def Tlog.Delays (ticks : ℕ) (log : Tlog) : Prop := 0 < log.ackTo.toNat ∧ log.ackTo.toNat ≤ ticks

/-- An acknowledgement that is put off is at most `ticks` away. -/
structure Paced (ticks : ℕ) (q330 : Slider β) : Prop where
  linkRecv : q330.linkRecv = true
  log : q330.log.Delays ticks
  ackDelay : q330.ackDelay ≤ ticks

lemma Paced.sessionStep {ticks : ℕ} (h : Paced ticks q330) (event : SliderEvent ℕ)
    (hslog : ∀ log, event = .slog log → log.Delays ticks) :
    Paced ticks (sessionStep after stream q330 event).1 := by
  cases event with
  | data n =>
    by_cases htaking : q330.Taking
    · obtain ⟨-, hsent, hlog, hlink⟩ := sessionStep_data after stream
        htaking n
      refine ⟨hlink.trans h.linkRecv, hlog ▸ h.log, ?_⟩
      rcases hsent with ⟨-, hdelay⟩ | ⟨-, hdelay⟩
      · omega
      · rw [hdelay]
        split_ifs
        · exact h.log.2
        · exact h.ackDelay
    · rw [sessionStep_data_idle after stream htaking]
      exact h
  | timer =>
    have hfst : (Lib330.sessionStep after stream q330 .timer).1 = _ := ackTimer_fst q330
    rw [hfst]
    exact ⟨h.linkRecv, h.log, (Nat.sub_le _ _).trans h.ackDelay⟩
  | dopen =>
    have hfst : (Lib330.sessionStep after stream q330 .dopen).1 = _ := sendDopen_fst q330
    rw [hfst]
    exact ⟨h.linkRecv, h.log, h.ackDelay⟩
  | state libstate => exact ⟨h.linkRecv, h.log, h.ackDelay⟩
  | freeze freezeTimer => exact ⟨h.linkRecv, h.log, h.ackDelay⟩
  | slog log => exact ⟨h.linkRecv, hslog log rfl, h.ackDelay⟩

end Lib330

end StationProcessor
