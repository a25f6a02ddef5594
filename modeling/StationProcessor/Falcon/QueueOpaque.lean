import StationProcessor.Falcon.StoredRecords

/-!
# Queued messages

`QueueOpaque` keeps one pending record for all channels. A message is appended to it, or the record
is sent and the message starts another one, or is sent at once if it takes several. The names of
channels are constant strings, as in falcon: `QueueOpaque` keeps a pointer to the last one.
-/

namespace StationProcessor

/-! ### What records contain -/

/-- A message or a part of one: the channel of its record, its `data_flags` and its data. -/
structure SentPart where
  channel : Bytes
  flags : UInt8
  data : Bytes
deriving DecidableEq

/-- The parts in a record, found by the offsets in it. -/
def recordParts (record : Bytes) : Option (List SentPart) :=
  (opaqueBlockettes record).map fun bs =>
    bs.map fun b => ⟨(record.drop 15).take 3, b.getD 13 0, blocketteData b⟩

/-- The parts in some records. -/
def sentParts : List Bytes → Option (List SentPart)
  | [] => some []
  | record :: records => do
    let parts ← recordParts record
    let rest ← sentParts records
    return parts ++ rest

/-- These are the parts of a message: all of it, in records of its channel only, and marked as one
message or as the first, the middle and the last fragments of one. -/
structure MessageParts (call : OpaqueCall) (parts : List SentPart) : Prop where
  channel : ∀ part ∈ parts, part.channel = nameField 3 call.channel
  data : parts.flatMap SentPart.data = call.data
  flags : parts.map SentPart.flags = (List.range parts.length).map (dataFlags parts.length)

/-- The records contain these messages in their order, each once, and nothing else. -/
def Delivers (calls : List OpaqueCall) (records : List Bytes) : Prop :=
  ∃ groups, sentParts records = some groups.flatten ∧ List.Forall₂ MessageParts calls groups

/-- The parts in a record. -/
def Stored.parts (free : ℕ) : Stored → List SentPart
  | .whole first more => (first :: more).map fun call =>
      ⟨nameField 3 call.channel, 0x00, call.data⟩
  | .fragment call i =>
      let count := numRecords call.data.length free
      [⟨nameField 3 call.channel, dataFlags count i, dataPart call.data free count i⟩]

section Records

variable {recordSize : ℕ} {channel record : Bytes} {init : List Blockette} {last : Blockette}
  {idstring : CString}

lemma Packed.take_channel (h : Packed recordSize channel init last record) :
    (record.drop 15).take 3 = channel := by
  obtain ⟨front, code, hfront, hchannel, rfl⟩ := h.layout
  have hlen : 3 ≤ (front.drop 15).length := by
    rw [List.length_drop, hfront]
    norm_num
  rw [packed, List.drop_append_of_le_length (by omega), List.take_append_of_le_length hlen,
    hchannel]

lemma recordParts_packed (h : Packed recordSize channel init last record) :
    recordParts record = some ((init ++ [last]).map fun b => ⟨channel, b.flags, b.data⟩) := by
  obtain ⟨bs, hbs, hall⟩ := opaqueBlockettes_packed h
  rw [recordParts, hbs, Option.map_some, h.take_channel]
  congr 1
  rw [← List.forall₂_eq_eq_eq, List.forall₂_map_left_iff, List.forall₂_map_right_iff]
  refine hall.imp fun s b hs => ?_
  rw [hs.flags, hs.data]

/-- The parts that are found in a record. -/
lemma StoredAs.recordParts {stored : Stored} (h : StoredAs recordSize idstring record stored) :
    recordParts record = some (stored.parts (freeSpace recordSize idstring)) := by
  cases h with
  | @whole channel _ init last first more hpacked hcalls =>
    rw [recordParts_packed hpacked]
    congr 1
    rw [Stored.parts, ← List.forall₂_eq_eq_eq, List.forall₂_map_left_iff,
      List.forall₂_map_right_iff]
    refine hcalls.imp fun b call hb => ?_
    rw [hb.1, hb.2.1, hb.2.2]
  | fragment hpacked => exact recordParts_packed hpacked

/-- The parts that are found in records. -/
lemma sentParts_stored {records : List Bytes} {stored : List Stored}
    (h : List.Forall₂ (StoredAs recordSize idstring) records stored) :
    sentParts records = some (stored.flatMap (Stored.parts (freeSpace recordSize idstring))) := by
  induction h with
  | nil => rfl
  | cons hrecord _ ih => simp [sentParts, hrecord.recordParts, ih]

end Records

/-! ### The parts of messages -/

section Parts

variable {free : ℕ} {stored : List Stored} {calls : List OpaqueCall}

/-- A message that has no record for itself is one part. -/
lemma messageParts_whole (call : OpaqueCall) :
    MessageParts call [⟨nameField 3 call.channel, 0x00, call.data⟩] where
  channel part hpart := by rw [List.mem_singleton.mp hpart]
  data := by simp
  flags := rfl

/-- The fragments of a message are its parts. -/
lemma messageParts_fragments (hfree : 0 < free) {call : OpaqueCall} (hdata : call.data ≠ []) :
    MessageParts call ((fragmentsOf free call).flatMap (Stored.parts free)) := by
  have hparts : (fragmentsOf free call).flatMap (Stored.parts free)
      = (List.range (numRecords call.data.length free)).map fun i =>
        ⟨nameField 3 call.channel, dataFlags (numRecords call.data.length free) i,
          dataPart call.data free (numRecords call.data.length free) i⟩ := by
    rw [fragmentsOf, List.flatMap_map, List.map_eq_flatMap]
    rfl
  rw [hparts]
  refine ⟨?_, ?_, ?_⟩
  · intro part hpart
    obtain ⟨i, -, rfl⟩ := List.mem_map.mp hpart
    rfl
  · rw [List.flatMap_map]
    exact flatMap_dataPart hfree hdata
  · rw [List.map_map, List.length_map, List.length_range]
    rfl

/-- The parts in records are those of the messages in them. -/
lemma Layout.messageParts (h : Layout free stored calls) (hfree : 0 < free)
    (hdata : ∀ call ∈ calls, call.data ≠ []) :
    ∃ groups, stored.flatMap (Stored.parts free) = groups.flatten ∧
      List.Forall₂ MessageParts calls groups := by
  induction h with
  | nil => exact ⟨[], rfl, .nil⟩
  | @whole _ _ _ first more _ ih =>
    obtain ⟨groups, hgroups, hcalls⟩ := ih fun c hc => hdata c (List.mem_append_left _ hc)
    refine ⟨groups ++ (first :: more).map fun call =>
      [⟨nameField 3 call.channel, 0x00, call.data⟩], ?_, List.rel_append hcalls ?_⟩
    · rw [List.flatMap_append, List.flatten_append, hgroups, ← List.flatMap_def,
        ← List.map_eq_flatMap]
      simp [Stored.parts]
    · exact List.forall₂_map_right_iff.mpr (List.forall₂_same.mpr fun c _ => messageParts_whole c)
  | @fragments _ _ _ call _ ih =>
    obtain ⟨groups, hgroups, hcalls⟩ := ih fun c hc => hdata c (List.mem_append_left _ hc)
    refine ⟨groups ++ [_], ?_, List.rel_append hcalls (List.Forall₂.cons
      (messageParts_fragments hfree (hdata call (by simp))) .nil)⟩
    rw [List.flatMap_append, List.flatten_append, hgroups, List.flatten_singleton]

end Parts

/-! ### The queue -/

/-- **Queued messages.** Any messages that are not empty, queued for any channels and then flushed,
are in the records that were sent: each once, in their order, and in records of its channel only. -/
theorem queueOpaque_delivers {recordSize : ℕ} {code : UInt8} {name : OpaqueName}
    (hcode : recordLengthCode recordSize = some code)
    (hends : name.idstring.val.getLast? = some 126)
    (hfree : 0 < freeSpace recordSize name.idstring) (calls : List OpaqueCall)
    (hdata : ∀ call ∈ calls, call.data ≠ [])
    (hmemory : ∀ call ∈ calls,
      recordSize * numRecords call.data.length (freeSpace recordSize name.idstring) < 2 ^ 31) :
    ∃ q, calls.foldlM (queueOpaque name recordSize) opaqueQueueInit = .ok q ∧
      Delivers calls (flushOpaque q).sent := by
  have hlast : ¬ ∃ b ∈ name.idstring.val.getLast?, b ≠ 126 := by
    simp [hends]
  have hqueued : queuedCalls (calls.map .queue) = calls := by
    rw [queuedCalls, List.filterMap_map]
    exact List.filterMap_some
  obtain ⟨q, hrun, hstores⟩ := (queueStores_init recordSize name.idstring).run (calls.map .queue)
    (fun call hcall => ⟨hfree, hmemory call (hqueued ▸ hcall), hcode, hlast⟩)
    (fun call hcall => hdata call (hqueued ▸ hcall))
  rw [hqueued, List.nil_append] at hstores
  rw [List.foldlM_map] at hrun
  obtain ⟨stored, hsent, hlayout⟩ := hstores.sent
  obtain ⟨groups, hgroups, hcalls⟩ := hlayout.messageParts hfree hdata
  exact ⟨q, hrun, groups, hgroups ▸ sentParts_stored hsent, hcalls⟩

/-- A message for a channel. -/
def opaqueCall (data channel : Bytes) (hchannel : 0 ∉ channel) : OpaqueCall :=
  ⟨data, ⟨channel, hchannel⟩, fun _ => ⟨2020, 1, 0, 0, 0⟩⟩

/-- Messages for two channels. -/
def twoChannels : List OpaqueCall :=
  [opaqueCall [1, 2] (ascii "OFA") zero_notMem_ofa, opaqueCall [3] (ascii "OFC") zero_notMem_ofc,
    opaqueCall [4] (ascii "OFA") zero_notMem_ofa]

theorem queueOpaque_delivers_two :
    ∃ q, twoChannels.foldlM (queueOpaque ofaName 256) opaqueQueueInit = .ok q ∧
      Delivers twoChannels (flushOpaque q).sent :=
  @queueOpaque_delivers 256 8 ofaName (by rfl) (by rfl) (by decide) twoChannels
    (by simp [twoChannels, opaqueCall]) (by
      simp only [twoChannels, opaqueCall, List.forall_mem_cons, List.length_cons, List.length_nil]
      refine ⟨by decide, by decide, by decide, fun _ h => absurd h List.not_mem_nil⟩)

end StationProcessor
