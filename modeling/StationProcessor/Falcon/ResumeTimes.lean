import StationProcessor.Falcon.MessageHeaders
import StationProcessor.Falcon.QueueOpaque

/-!
# Resume times

What `GetLastTimeCSV` and `GetLastTimeAlarm` find in a disk loop that `QueueOpaque` has written.
They take the first header in the newest record for that of the last message, and fragments for
messages.
-/

namespace StationProcessor

/-! ### What reading promises -/

/-- The records of a channel. -/
def channelRecords (channel : CString) (records : List Bytes) : List Bytes :=
  records.filter fun record => (record.drop 15).take 3 = nameField 3 channel

/-- The messages for a channel. -/
def channelCalls (channel : CString) (calls : List OpaqueCall) : List OpaqueCall :=
  calls.filter fun call => nameField 3 call.channel = nameField 3 channel

/-- A message begins in a record: it is complete there, or its first fragment is. -/
def Begins (record : Bytes) : Prop :=
  ∃ parts, recordParts record = some parts ∧ ∃ part ∈ parts, part.flags = 0x00 ∨ part.flags = 0x10

/-- What the bytes at the start of a fragment are as a header; there are zeros behind it. -/
def fragmentTime (alarm : Bool) (part : Bytes) : ℕ :=
  headerTime alarm (part ++ List.replicate 10 0)

/-- No fragment of a message but the first looks like a message, or the last that does shows the end
time of the message. -/
def FragmentsFit (alarm : Bool) (free : ℕ) (data : Bytes) : Prop :=
  let count := numRecords data.length free
  let time := fun i => fragmentTime alarm (dataPart data free count i)
  ∀ i, 0 < i → i < count → time i ≠ 0 → (∀ j, i < j → j < count → time j = 0) →
    time i = endTimeOf data

/-- The first message in the newest record ends when the last message does; or the newest record is
the last of several for the last message, and its fragments are not mistaken. -/
def ResumeFits (alarm : Bool) (free : ℕ) (newest : Bytes) (last : OpaqueCall) : Prop :=
  (Begins newest → ∀ parts part, recordParts newest = some parts → parts.head? = some part →
    endTimeOf part.data = endTimeOf last.data) ∧
  (¬ Begins newest → FragmentsFit alarm free last.data)

/-! ### One record -/

section Record

variable {recordSize : ℕ} {channel record : Bytes} {init : List Blockette} {last b : Blockette}
  {idstring : CString} {alarm : Bool}

/-- A blockette whose flags are those of a message is read as the start of one. -/
lemma timeAt_eq {bs rest : Bytes} {next : ℕ} (hbs : bs = b.toBytes next ++ rest)
    (hsize : b.size < 65536) (hflags : ¬(b.flags &&& (0x0c : UInt8)) >>> 2 > 1) :
    timeAt alarm bs = headerTime alarm (b.data ++ rest) := by
  subst hbs
  rw [timeAt, readsHeader, b.shortAt_type, b.getD_flags, b.shortAt_dataOffset hsize,
    b.drop_dataOffset, if_neg (by simp [hflags])]

/-- The blockettes of a record are read from the first one on. -/
lemma Packed.timeOf_eq (h : Packed recordSize channel init last record) (alarm : Bool) :
    ∃ fuel, timeOf alarm record = timeFrom alarm record (fuel + 1) 56 := by
  obtain ⟨h46, htype, hnext⟩ := h.offsets
  have hroom := h.room
  have hend := le_endOffset 56 init
  obtain ⟨fuel, hfuel⟩ := Nat.exists_eq_add_one_of_ne_zero (show recordSize ≠ 0 by omega)
  refine ⟨fuel, ?_⟩
  simp only [timeOf, h46, htype, hnext, h.length, hfuel]
  rfl

/-- The first blockette of a record. -/
lemma Packed.first (h : Packed recordSize channel init last record)
    (hb : (init ++ [last]).head? = some b) :
    b.size < 65536 ∧ ∃ next rest, record.drop 56 = b.toBytes next ++ rest := by
  obtain ⟨rest, hdrop⟩ := h.drop
  have hroom := h.room
  have hfits := h.fits
  cases init with
  | nil =>
    obtain rfl : last = b := by simpa using hb
    exact ⟨by omega, 0, rest, hdrop⟩
  | cons b' init =>
    obtain rfl : b' = b := by simpa using hb
    have hle := le_nextOffset 56 b'
    have hend : nextOffset 56 b' ≤ endOffset 56 (b' :: init) := le_endOffset _ init
    refine ⟨by omega, nextOffset 56 b', ?_⟩
    rw [hdrop, linked]
    simp only [List.append_assoc]
    exact ⟨_, rfl⟩

/-- Of a record of messages the first one is found. -/
lemma StoredAs.timeOf_whole {first : OpaqueCall} {more : List OpaqueCall}
    (h : StoredAs recordSize idstring record (.whole first more))
    (hmessage : IsMessage alarm first.data) :
    timeOf alarm record = some (endTimeOf first.data) := by
  cases h with
  | @whole channel _ init last _ _ hpacked hcalls =>
    obtain ⟨b, bs, ⟨hflags, hdata, -⟩, -, hhead⟩ := List.forall₂_cons_right_iff.mp hcalls
    obtain ⟨hsize, next, rest, hdrop⟩ := hpacked.first (b := b) (by rw [hhead]; rfl)
    obtain ⟨fuel, hfuel⟩ := hpacked.timeOf_eq alarm
    have htime : timeAt alarm (record.drop 56) = endTimeOf first.data := by
      rw [timeAt_eq hdrop hsize (by rw [hflags]; decide), hdata]
      exact hmessage.headerTime_eq List.prefix_rfl hmessage.length rest
    rw [hfuel, timeFrom]
    simp only [htime, if_pos hmessage.endTimeOf_pos]

lemma headerTime_congr {a a' : Bytes} (h : a.take 10 = a'.take 10) :
    headerTime alarm a = headerTime alarm a' := by
  have hversion : ∀ a : Bytes, shortAt a 0 = shortAt (a.take 10) 0 := by
    intro a
    rw [shortAt, shortAt, List.drop_zero, List.drop_zero, List.take_take]
    rfl
  have htime : ∀ a : Bytes, (a.drop 6).take 4 = ((a.take 10).drop 6).take 4 := by
    intro a
    rw [List.drop_take, List.take_take]
    rfl
  unfold headerTime
  rw [hversion a, hversion a', htime a, htime a', h]

lemma dataFlags_mask (count i : ℕ) : ¬(dataFlags count i &&& (0x0c : UInt8)) >>> 2 > 1 := by
  unfold dataFlags
  split_ifs <;> decide

/-- Of a record with a fragment, what is there as a header. -/
lemma StoredAs.timeOf_fragment {call : OpaqueCall} {i : ℕ}
    (h : StoredAs recordSize idstring record (.fragment call i))
    (hfree : 10 ≤ freeSpace recordSize idstring) :
    timeOf alarm record = some (fragmentTime alarm (dataPart call.data
      (freeSpace recordSize idstring)
      (numRecords call.data.length (freeSpace recordSize idstring)) i)) := by
  cases h with
  | @fragment multi _ _ _ hpacked =>
    generalize hb : opaqueBlockette multi call.data idstring (freeSpace recordSize idstring)
      (numRecords call.data.length (freeSpace recordSize idstring)) i = b at hpacked
    have hflags : ¬(b.flags &&& (0x0c : UInt8)) >>> 2 > 1 := by
      rw [← hb]
      exact dataFlags_mask _ i
    have hdata : dataPart call.data (freeSpace recordSize idstring)
        (numRecords call.data.length (freeSpace recordSize idstring)) i = b.data := by
      rw [← hb]
      rfl
    have hheader : b.header = headerField idstring := by simp only [← hb, opaqueBlockette]
    obtain ⟨fuel, hfuel⟩ := hpacked.timeOf_eq alarm
    have hroom : 56 + b.size ≤ recordSize := hpacked.room
    have hsize : b.size < 65536 := by
      have hfits := hpacked.fits
      omega
    obtain ⟨front, code, hfront, -, rfl⟩ := hpacked.layout
    have hdrop : (packed front code recordSize [] b).drop 56
        = b.toBytes 0 ++ List.replicate (recordSize - (56 + b.size)) 0 :=
      drop_packed hfront code recordSize [] b
    -- the rest of the record is zero
    have htime : timeAt alarm ((packed front code recordSize [] b).drop 56)
        = fragmentTime alarm b.data := by
      rw [timeAt_eq hdrop hsize hflags]
      apply headerTime_congr
      have hlength : 10 ≤ b.data.length + (recordSize - (56 + b.size)) := by
        rw [freeSpace] at hfree
        rw [Blockette.size, Blockette.dataOffset, hheader, length_headerField] at hroom ⊢
        omega
      rw [List.take_append, List.take_append, List.take_replicate, List.take_replicate]
      congr 2
      omega
    have hnext : shortAt ((packed front code recordSize [] b).drop 56) 2 = 0 := by
      rw [hdrop]
      exact b.shortAt_next (by norm_num) _
    rw [hfuel, hdata, timeFrom]
    simp only [htime, hnext, if_true]
    split_ifs with hzero
    · rfl
    · rw [not_not.mp hzero]

end Record

/-! ### Fragments -/

section Fragments

variable {recordSize : ℕ} {idstring : CString} {alarm : Bool}

/-- The reader goes over fragments until one looks like a message; the first one does. -/
lemma lastTime_fragments {call : OpaqueCall} {m k : ℕ} {records : List Bytes}
    (h : List.Forall₂ (StoredAs recordSize idstring) records
      ((List.range m).reverse.map (.fragment call)))
    (hfree : 10 ≤ freeSpace recordSize idstring) (hmessage : IsMessage alarm call.data)
    (hcount : 1 < numRecords call.data.length (freeSpace recordSize idstring)) (hpos : 1 ≤ m)
    (hle : m ≤ k) (older : List Bytes) :
    let free := freeSpace recordSize idstring
    let time := fun i => fragmentTime alarm (dataPart call.data free
      (numRecords call.data.length free) i)
    lastTime alarm k (records ++ older) = some (endTimeOf call.data) ↔
      ∀ i, 0 < i → i < m → time i ≠ 0 → (∀ j, i < j → j < m → time j = 0) →
        time i = endTimeOf call.data := by
  intro free time
  have hfirst : time 0 = endTimeOf call.data := by
    have hpart : dataPart call.data free (numRecords call.data.length free) 0
        = call.data.take free := by
      rw [dataPart, if_pos hcount, zero_mul, List.drop_zero]
    have hlength : 10 ≤ (call.data.take free).length := by
      rw [List.length_take]
      exact le_min hfree hmessage.length
    show headerTime alarm (dataPart call.data free (numRecords call.data.length free) 0 ++ _) = _
    rw [hpart]
    exact hmessage.headerTime_eq (List.take_prefix free call.data) hlength _
  induction m generalizing k records with
  | zero => omega
  | succ m ih =>
    obtain ⟨k, rfl⟩ := Nat.exists_eq_add_one_of_ne_zero (show k ≠ 0 by omega)
    rw [List.range_succ, List.reverse_append, List.reverse_singleton, List.singleton_append,
      List.map_cons] at h
    obtain ⟨record, records, hrecord, hrecords, rfl⟩ := List.forall₂_cons_right_iff.mp h
    have htime : timeOf alarm record = some (time m) := hrecord.timeOf_fragment hfree
    rw [List.cons_append, lastTime, htime]
    simp only [Option.bind_eq_bind, Option.bind_some]
    by_cases hzero : time m = 0
    · rw [if_neg (not_not.mpr hzero)]
      rcases Nat.eq_zero_or_pos m with rfl | hm
      · -- the first fragment begins like the message
        exact absurd (hfirst.symm.trans hzero) hmessage.endTimeOf_pos
      · refine (ih hrecords hm (Nat.le_of_succ_le_succ hle)).trans ?_
        constructor
        · intro hfit i hi hlt hsome hlater
          have hne : i ≠ m := by
            rintro rfl
            exact hsome hzero
          exact hfit i hi (by omega) hsome fun j hj hjm => hlater j hj (by omega)
        · intro hfit i hi hlt hsome hlater
          refine hfit i hi (by omega) hsome fun j hj hjm => ?_
          rcases Nat.lt_succ_iff_lt_or_eq.mp hjm with hjm | rfl
          · exact hlater j hj hjm
          · exact hzero
    · rw [if_pos hzero]
      constructor
      · intro heq i hi hlt hsome hlater
        rcases Nat.lt_succ_iff_lt_or_eq.mp hlt with hlt | rfl
        · exact absurd (hlater m hlt (Nat.lt_succ_self m)) hzero
        · exact Option.some.inj heq
      · intro hfit
        rcases Nat.eq_zero_or_pos m with rfl | hm
        · rw [hfirst]
          rfl
        · rw [hfit m hm (Nat.lt_succ_self m) hzero fun j hj hjm => by omega]
          rfl

end Fragments

/-! ### The records of a channel -/

/-- The channel of a record. -/
def Stored.channel : Stored → Bytes
  | .whole first _ => nameField 3 first.channel
  | .fragment call _ => nameField 3 call.channel

section Channel

variable {recordSize free : ℕ} {idstring : CString} {alarm : Bool} {record : Bytes}
  {stored : List Stored} {calls : List OpaqueCall}

lemma StoredAs.channel {s : Stored} (h : StoredAs recordSize idstring record s) :
    (record.drop 15).take 3 = s.channel := by
  cases h with
  | whole hpacked hcalls =>
    obtain ⟨b, bs, hb, -, -⟩ := List.forall₂_cons_right_iff.mp hcalls
    rw [hpacked.take_channel, Stored.channel, hb.2.2]
  | fragment hpacked => exact hpacked.take_channel

lemma forall₂_channelRecords {records : List Bytes} (channel : CString)
    (h : List.Forall₂ (StoredAs recordSize idstring) records stored) :
    List.Forall₂ (StoredAs recordSize idstring) (channelRecords channel records)
      (stored.filter fun s => s.channel = nameField 3 channel) := by
  refine List.rel_filter (fun record s hs => ?_) h
  simp [hs.channel]

/-- The records of a channel contain its messages. -/
lemma Layout.channel (h : Layout free stored calls) (channel : CString) :
    Layout free (stored.filter fun s => s.channel = nameField 3 channel)
      (channelCalls channel calls) := by
  unfold channelCalls
  induction h with
  | nil => exact .nil
  | @whole stored calls h first more hsame ih =>
    rw [List.filter_append, List.filter_append]
    by_cases hfirst : nameField 3 first.channel = nameField 3 channel
    · have hall : ∀ call ∈ first :: more, nameField 3 call.channel = nameField 3 channel :=
        List.forall_mem_cons.mpr ⟨hfirst, fun call hcall => (hsame call hcall).trans hfirst⟩
      have hcalls :
          (first :: more).filter (fun call => nameField 3 call.channel = nameField 3 channel)
            = first :: more :=
        List.filter_eq_self.mpr fun call hcall => decide_eq_true (hall call hcall)
      have hstored : [Stored.whole first more].filter (fun s => s.channel = nameField 3 channel)
          = [.whole first more] := by simp [Stored.channel, hfirst]
      rw [hcalls, hstored]
      exact ih.whole hsame
    · have hcalls :
          (first :: more).filter (fun call => nameField 3 call.channel = nameField 3 channel)
            = [] := by
        refine List.filter_eq_nil_iff.mpr fun call hcall => ?_
        rcases List.mem_cons.mp hcall with rfl | hcall
        · simpa using hfirst
        · simpa [hsame call hcall] using hfirst
      have hstored : [Stored.whole first more].filter (fun s => s.channel = nameField 3 channel)
          = [] := by simp [Stored.channel, hfirst]
      rw [hcalls, hstored, List.append_nil, List.append_nil]
      exact ih
  | @fragments stored calls h call hcount ih =>
    rw [List.filter_append, List.filter_append]
    have hmem : ∀ s ∈ fragmentsOf free call, s.channel = nameField 3 call.channel := by
      intro s hs
      obtain ⟨i, -, rfl⟩ := List.mem_map.mp hs
      rfl
    by_cases hcall : nameField 3 call.channel = nameField 3 channel
    · have hcalls : [call].filter (fun call => nameField 3 call.channel = nameField 3 channel)
          = [call] := by simp [hcall]
      have hstored : (fragmentsOf free call).filter (fun s => s.channel = nameField 3 channel)
          = fragmentsOf free call :=
        List.filter_eq_self.mpr fun s hs => decide_eq_true ((hmem s hs).trans hcall)
      rw [hcalls, hstored]
      exact ih.fragments hcount
    · have hcalls : [call].filter (fun call => nameField 3 call.channel = nameField 3 channel)
          = [] := by simp [hcall]
      have hstored : (fragmentsOf free call).filter (fun s => s.channel = nameField 3 channel)
          = [] := by
        refine List.filter_eq_nil_iff.mpr fun s hs => ?_
        simpa [hmem s hs] using hcall
      rw [hcalls, hstored, List.append_nil, List.append_nil]
      exact ih

/-- A message begins in a record of messages. -/
lemma StoredAs.begins_whole {first : OpaqueCall} {more : List OpaqueCall}
    (h : StoredAs recordSize idstring record (.whole first more)) : Begins record :=
  ⟨_, h.recordParts, ⟨nameField 3 first.channel, 0x00, first.data⟩, List.mem_cons_self, Or.inl rfl⟩

/-- It begins in a record with a fragment when that is the first. -/
lemma StoredAs.not_begins {call : OpaqueCall} {i : ℕ}
    (h : StoredAs recordSize idstring record (.fragment call i)) (hi : 0 < i)
    (hcount : 1 < numRecords call.data.length (freeSpace recordSize idstring)) :
    ¬ Begins record := by
  rintro ⟨parts, hparts, part, hpart, hflags⟩
  have hsame := Option.some.inj (hparts.symm.trans h.recordParts)
  rw [hsame, Stored.parts, List.mem_singleton] at hpart
  subst hpart
  simp only [dataFlags, if_pos hcount, if_neg hi.ne'] at hflags
  split_ifs at hflags
  · exact absurd hflags (by decide)
  · exact absurd hflags (by decide)

end Channel

/-! ### Reading the disk loop -/

section Loop

variable {recordSize : ℕ} {idstring : CString} {alarm : Bool} {records : List Bytes}
  {stored : List Stored} {calls : List OpaqueCall}

/-- The newest records, read: all messages in them have headers. -/
lemma Layout.lastTime_iff (hlayout : Layout (freeSpace recordSize idstring) stored calls)
    (hrecords : List.Forall₂ (StoredAs recordSize idstring) records stored)
    (hfree : 10 ≤ freeSpace recordSize idstring)
    (hmessage : ∀ call ∈ calls, IsMessage alarm call.data) {kept : ℕ}
    (hbegins : ∃ record ∈ (records.reverse.take kept).take maxToCheck, Begins record) :
    ∃ newest last, (records.reverse.take kept).head? = some newest ∧ calls.getLast? = some last ∧
      (lastTime alarm maxToCheck (records.reverse.take kept) = some (endTimeOf last.data) ↔
        ResumeFits alarm (freeSpace recordSize idstring) newest last) := by
  have hreverse := List.rel_reverse hrecords
  obtain ⟨record₀, hrecord₀, hbegins₀⟩ := hbegins
  have hkept : kept ≠ 0 := by
    rintro rfl
    simp at hrecord₀
  obtain ⟨kept, rfl⟩ := Nat.exists_eq_add_one_of_ne_zero hkept
  cases hlayout with
  | nil =>
    cases hrecords
    simp at hrecord₀
  | @whole stored calls _ first more hsame =>
    rw [List.reverse_append, List.reverse_singleton, List.singleton_append] at hreverse
    obtain ⟨newest, older, hnewest, -, hloop⟩ := List.forall₂_cons_right_iff.mp hreverse
    have hfirst : IsMessage alarm first.data := hmessage first (by simp)
    have hlast : (calls ++ first :: more).getLast? = some ((first :: more).getLast (by simp)) := by
      rw [List.getLast?_append, List.getLast?_eq_some_getLast (List.cons_ne_nil first more)]
      rfl
    refine ⟨newest, _, by rw [hloop]; rfl, hlast, ?_⟩
    have htime : lastTime alarm maxToCheck (records.reverse.take (kept + 1))
        = some (endTimeOf first.data) := by
      rw [hloop, List.take_succ_cons, maxToCheck, lastTime, hnewest.timeOf_whole hfirst]
      simp only [Option.bind_eq_bind, Option.bind_some, if_pos hfirst.endTimeOf_pos]
      rfl
    rw [htime, Option.some_inj]
    have hparts := hnewest.recordParts
    constructor
    · intro heq
      refine ⟨fun _ parts part hread hhead => ?_, fun hnot => absurd hnewest.begins_whole hnot⟩
      obtain rfl := Option.some.inj (hread.symm.trans hparts)
      obtain rfl := Option.some.inj hhead
      exact heq
    · intro hfit
      exact hfit.1 hnewest.begins_whole _ _ hparts rfl
  | @fragments stored calls _ call hcount =>
    generalize hn : numRecords call.data.length (freeSpace recordSize idstring) = n at hcount
    have hlength : (fragmentsOf (freeSpace recordSize idstring) call).reverse.length = n := by
      simp [fragmentsOf, hn]
    rw [List.reverse_append] at hreverse
    -- record number `j` from the newest one on
    have hfragment : ∀ j (hj : j < n) (hj' : j < records.reverse.length),
        StoredAs recordSize idstring records.reverse[j] (.fragment call (n - 1 - j)) := by
      intro j hj hj'
      have hget := hreverse.get hj' (by rw [List.length_append]; omega)
      simp only [List.get_eq_getElem] at hget
      rw [List.getElem_append_left (by omega)] at hget
      simpa [fragmentsOf, hn] using hget
    have hnewer := List.forall₂_take_append _ _ _ hreverse
    rw [hlength] at hnewer
    -- a message begins in the records that are read, so all fragments are among them
    have hall : n ≤ kept + 1 ∧ n ≤ maxToCheck := by
      by_contra hfew
      rw [List.take_take, List.mem_take_iff_getElem] at hrecord₀
      obtain ⟨j, hj, rfl⟩ := hrecord₀
      have hless : j < n - 1 := by omega
      exact (hfragment j (by omega) (by omega)).not_begins (by omega) (hn ▸ hcount) hbegins₀
    have hmany : n ≤ records.reverse.length := by
      rw [hreverse.length_eq, List.length_append, hlength]
      exact Nat.le_add_right _ _
    have hsplit : records.reverse.take (kept + 1) = records.reverse.take n
        ++ (records.reverse.drop n).take (kept + 1 - n) := by
      rw [← List.take_add, Nat.add_sub_cancel' hall.1]
    obtain ⟨newest, rest, hloop⟩ : ∃ newest rest, records.reverse = newest :: rest :=
      List.exists_cons_of_ne_nil (List.length_pos_iff.mp (by omega))
    have hnewest : StoredAs recordSize idstring newest (.fragment call (n - 1)) := by
      have hzero := hfragment 0 (by omega) (by omega)
      simpa only [hloop, List.getElem_cons_zero, Nat.sub_zero] using hzero
    have hnot := hnewest.not_begins (by omega) (hn ▸ hcount)
    rw [fragmentsOf, hn, ← List.map_reverse] at hnewer
    have hread := lastTime_fragments hnewer hfree (hmessage call (by simp)) (hn ▸ hcount)
      (by omega) hall.2 ((records.reverse.drop n).take (kept + 1 - n))
    refine ⟨newest, call, by rw [hloop]; rfl, by simp, ?_⟩
    rw [hsplit]
    refine hread.trans ⟨fun hfit => ⟨fun h => absurd h hnot, fun _ => ?_⟩, fun hfit => ?_⟩
    · unfold FragmentsFit
      rw [hn]
      rw [hn] at hfit
      exact hfit
    · have hfit := hfit.2 hnot
      unfold FragmentsFit at hfit
      rw [hn] at hfit ⊢
      exact hfit

end Loop

/-- The records of any calls of `QueueOpaque` and `FlushOpaque`. -/
lemma exists_sent {recordSize : ℕ} {code : UInt8} {name : OpaqueName}
    (hcode : recordLengthCode recordSize = some code)
    (hends : name.idstring.val.getLast? = some 126)
    (hfree : 10 ≤ freeSpace recordSize name.idstring) (ops : List QueueOp)
    (hdata : ∀ call ∈ queuedCalls ops, call.data ≠ [])
    (hmemory : ∀ call ∈ queuedCalls ops,
      recordSize * numRecords call.data.length (freeSpace recordSize name.idstring) < 2 ^ 31) :
    ∃ q stored, ops.foldlM (QueueOp.run name recordSize) opaqueQueueInit = .ok q ∧
      List.Forall₂ (StoredAs recordSize name.idstring) (flushOpaque q).sent stored ∧
      Layout (freeSpace recordSize name.idstring) stored (queuedCalls ops) := by
  have hlast : ¬ ∃ b ∈ name.idstring.val.getLast?, b ≠ 126 := by
    simp [hends]
  obtain ⟨q, hrun, hstores⟩ := (queueStores_init recordSize name.idstring).run ops
    (fun call hcall => ⟨(by norm_num : 0 < 10).trans_le hfree, hmemory call hcall, hcode, hlast⟩)
    hdata
  rw [List.nil_append] at hstores
  obtain ⟨stored, hsent, hlayout⟩ := hstores.sent
  exact ⟨q, stored, hrun, hsent, hlayout⟩

/-- **Resume times.** After any calls of `QueueOpaque` and `FlushOpaque` the newest records of a
channel, whose messages are all of one kind, are read back: if a message begins in those that are
looked at, the time found is the end time of the last message if and only if the first message in
the newest record ends then too or, where the last message takes several records, none of its later
fragments is mistaken for a message. -/
theorem lastTime_eq_iff {recordSize : ℕ} {code : UInt8} {name : OpaqueName}
    (hcode : recordLengthCode recordSize = some code)
    (hends : name.idstring.val.getLast? = some 126)
    (hfree : 10 ≤ freeSpace recordSize name.idstring) (alarm : Bool) (channel : CString)
    (ops : List QueueOp) (hdata : ∀ call ∈ queuedCalls ops, call.data ≠ [])
    (hmemory : ∀ call ∈ queuedCalls ops,
      recordSize * numRecords call.data.length (freeSpace recordSize name.idstring) < 2 ^ 31)
    (hproduced : ∀ call ∈ channelCalls channel (queuedCalls ops), Produced alarm call.data)
    (kept : ℕ) :
    ∃ q, ops.foldlM (QueueOp.run name recordSize) opaqueQueueInit = .ok q ∧
      let loop := (channelRecords channel (flushOpaque q).sent).reverse.take kept
      (∃ record ∈ loop.take maxToCheck, Begins record) →
        ∃ newest last, loop.head? = some newest ∧
          (channelCalls channel (queuedCalls ops)).getLast? = some last ∧
          (lastTime alarm maxToCheck loop = some (endTimeOf last.data) ↔
            ResumeFits alarm (freeSpace recordSize name.idstring) newest last) := by
  obtain ⟨q, stored, hrun, hsent, hlayout⟩ :=
    exists_sent hcode hends hfree ops hdata hmemory
  refine ⟨q, hrun, (hlayout.channel channel).lastTime_iff (forall₂_channelRecords channel hsent)
    hfree fun call hcall => (hproduced call hcall).isMessage⟩

/-- The channel of the alarms of falcon. -/
def alarmChannel : CString := ⟨ascii "OFA", zero_notMem_ofa⟩

/-- A message with one alarm of a second. -/
def alarmCall (timestamp : ℤ) (h : 0 < timestamp ∧ timestamp < 2 ^ 32) : OpaqueCall where
  data := alarmPayload timestamp timestamp 1 [alarmAt timestamp h]
  channel := alarmChannel
  now := fun _ => ⟨2020, 1, 0, 0, 0⟩

/-- Two messages that fit into one record. -/
def twoAlarms : List QueueOp :=
  [.queue (alarmCall 1 one_fits), .queue (alarmCall 2 two_fits)]

lemma produced_alarmCall :
    Produced true (alarmCall 1 one_fits).data ∧ Produced true (alarmCall 2 two_fits).data :=
  ⟨⟨[alarmAt 1 one_fits], by decide +kernel⟩, ⟨[alarmAt 2 two_fits], by decide +kernel⟩⟩

/-- With one message it is the last one. -/
theorem lastTime_eq_iff_one :
    ∃ q, [QueueOp.queue (alarmCall 1 one_fits)].foldlM (QueueOp.run ofaName 256) opaqueQueueInit
        = .ok q ∧
      let loop := (channelRecords alarmChannel (flushOpaque q).sent).reverse.take 100
      (∃ record ∈ loop.take maxToCheck, Begins record) →
        ∃ newest last, loop.head? = some newest ∧
          (channelCalls alarmChannel
            (queuedCalls [QueueOp.queue (alarmCall 1 one_fits)])).getLast? = some last ∧
          (lastTime true maxToCheck loop = some (endTimeOf last.data) ↔
            ResumeFits true (freeSpace 256 ofaName.idstring) newest last) := by
  refine @lastTime_eq_iff 256 8 ofaName rfl rfl (by decide) true alarmChannel _ ?_ ?_ ?_ 100
  · intro call hcall
    obtain rfl := List.mem_singleton.mp hcall
    exact List.cons_ne_nil _ _
  · intro call hcall
    obtain rfl := List.mem_singleton.mp hcall
    exact by decide +kernel
  · intro call hcall
    obtain rfl := List.mem_singleton.mp (List.mem_of_mem_filter hcall)
    exact produced_alarmCall.1

/-- Of two messages in a record the end time of the first is taken for that of the last. -/
theorem lastTime_not :
    ∃ q, twoAlarms.foldlM (QueueOp.run ofaName 256) opaqueQueueInit = .ok q ∧
      let loop := (channelRecords alarmChannel (flushOpaque q).sent).reverse
      (∃ record ∈ loop.take maxToCheck, Begins record) ∧
        (∀ call ∈ channelCalls alarmChannel (queuedCalls twoAlarms), Produced true call.data) ∧
        lastTimeAlarm loop = some 1 ∧
        (channelCalls alarmChannel (queuedCalls twoAlarms)).getLast?.map
          (fun last => endTimeOf last.data) = some 2 := by
  have hread : (twoAlarms.foldlM (QueueOp.run ofaName 256) opaqueQueueInit).toOption.any (fun q =>
      let loop := (channelRecords alarmChannel (flushOpaque q).sent).reverse
      (loop.take maxToCheck).any (fun record => (recordParts record).any (·.any (·.flags = 0x00))) ∧
        lastTimeAlarm loop = some 1) := by decide +kernel
  cases hrun : twoAlarms.foldlM (QueueOp.run ofaName 256) opaqueQueueInit with
  | error e =>
    rw [hrun] at hread
    cases hread
  | ok q =>
    rw [hrun] at hread
    obtain ⟨hbegins, htime⟩ := of_decide_eq_true hread
    obtain ⟨record, hrecord, hbegins⟩ := List.any_eq_true.mp hbegins
    refine ⟨q, rfl, ⟨record, hrecord, ?_⟩, ?_, htime, by decide +kernel⟩
    · cases hparts : recordParts record with
      | none =>
        rw [hparts] at hbegins
        cases hbegins
      | some parts =>
        rw [hparts] at hbegins
        obtain ⟨part, hpart, hflags⟩ := List.any_eq_true.mp hbegins
        exact ⟨parts, hparts, part, hpart, Or.inl (of_decide_eq_true hflags)⟩
    · intro call hcall
      have hmem := List.mem_of_mem_filter hcall
      rcases List.mem_pair.mp hmem with rfl | rfl
      · exact produced_alarmCall.1
      · exact produced_alarmCall.2

end StationProcessor
