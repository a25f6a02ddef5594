import StationProcessor.Falcon.OpaqueChain

/-!
# Records of queued messages

What is in each record that `QueueOpaque` and `FlushOpaque` send: some messages, or a fragment of
one. A message that takes several records has them for itself, one after the other.
-/

namespace StationProcessor

/-! ### Runs -/

/-- A call of `QueueOpaque` or of `FlushOpaque`. -/
inductive QueueOp
  | queue (call : OpaqueCall)
  | flush

def QueueOp.run (name : OpaqueName) (recordSize : ℕ) (q : OpaqueQueue) :
    QueueOp → Except OpaqueError OpaqueQueue
  | .queue call => queueOpaque name recordSize q call
  | .flush => .ok (flushOpaque q)

/-- The messages that are queued. -/
def queuedCalls (ops : List QueueOp) : List OpaqueCall :=
  ops.filterMap fun
    | .queue call => some call
    | .flush => none

/-! ### Contents of records -/

/-- What is in a record: messages, of which there is at least one, or a fragment of a message. -/
inductive Stored
  | whole (first : OpaqueCall) (more : List OpaqueCall)
  | fragment (call : OpaqueCall) (i : ℕ)

/-- A record contains this. -/
inductive StoredAs (recordSize : ℕ) (idstring : CString) : Bytes → Stored → Prop
  | whole {channel record : Bytes} {init : List Blockette} {last : Blockette} {first : OpaqueCall}
      {more : List OpaqueCall} (h : Packed recordSize channel init last record)
      (hcalls : List.Forall₂ (fun b call => b.flags = 0x00 ∧ b.data = call.data ∧
        nameField 3 call.channel = channel) (init ++ [last]) (first :: more)) :
      StoredAs recordSize idstring record (.whole first more)
  | fragment {multi i : ℕ} {call : OpaqueCall} {record : Bytes}
      (h : Packed recordSize (nameField 3 call.channel) []
        (opaqueBlockette multi call.data idstring (freeSpace recordSize idstring)
          (numRecords call.data.length (freeSpace recordSize idstring)) i) record) :
      StoredAs recordSize idstring record (.fragment call i)

/-- The fragments of a message. -/
def fragmentsOf (free : ℕ) (call : OpaqueCall) : List Stored :=
  (List.range (numRecords call.data.length free)).map (.fragment call)

/-- The messages in records, in their order. -/
inductive Layout (free : ℕ) : List Stored → List OpaqueCall → Prop
  | nil : Layout free [] []
  | whole {stored : List Stored} {calls : List OpaqueCall} (h : Layout free stored calls)
      {first : OpaqueCall} {more : List OpaqueCall}
      (hsame : ∀ call ∈ more, nameField 3 call.channel = nameField 3 first.channel) :
      Layout free (stored ++ [.whole first more]) (calls ++ first :: more)
  | fragments {stored : List Stored} {calls : List OpaqueCall} (h : Layout free stored calls)
      {call : OpaqueCall} (hcount : 1 < numRecords call.data.length free) :
      Layout free (stored ++ fragmentsOf free call) (calls ++ [call])

/-- The pending record, if there is one, contains the messages that were queued last. -/
inductive PendingAs (recordSize : ℕ) (idstring : CString) (channel : Bytes) :
    Option (List Bytes) → List OpaqueCall → Prop
  | none : PendingAs recordSize idstring channel none []
  | record {record : Bytes} {first : OpaqueCall} {more : List OpaqueCall}
      (h : StoredAs recordSize idstring record (.whole first more))
      (hchannel : nameField 3 first.channel = channel) :
      PendingAs recordSize idstring channel (some [record]) (first :: more)

/-- What was sent and what is pending contain the messages queued so far. -/
def QueueStores (recordSize : ℕ) (idstring : CString) (q : OpaqueQueue)
    (calls : List OpaqueCall) : Prop :=
  ∃ stored before pending, List.Forall₂ (StoredAs recordSize idstring) q.sent stored ∧
    Layout (freeSpace recordSize idstring) stored before ∧
    PendingAs recordSize idstring (nameField 3 q.lastChan) q.pending pending ∧
    calls = before ++ pending

section Queue

variable {recordSize : ℕ} {code : UInt8} {name : OpaqueName} {q : OpaqueQueue}
  {calls : List OpaqueCall} {call : OpaqueCall}

/-- The messages in a record are for one channel. -/
lemma StoredAs.same {idstring : CString} {record : Bytes} {first : OpaqueCall}
    {more : List OpaqueCall} (h : StoredAs recordSize idstring record (.whole first more)) :
    ∀ call ∈ more, nameField 3 call.channel = nameField 3 first.channel := by
  cases h with
  | @whole channel _ _ _ _ _ _ hcalls =>
    have hall : ∀ call ∈ first :: more, nameField 3 call.channel = channel :=
      ((List.forall₂_and_left (R := fun _ _ => True) _ _).mp
        (hcalls.flip.imp fun _ _ hb => ⟨hb.2.2, trivial⟩)).1
    intro call hcall
    rw [hall call (List.mem_cons_of_mem first hcall), hall first List.mem_cons_self]

lemma queueStores_init (recordSize : ℕ) (idstring : CString) :
    QueueStores recordSize idstring opaqueQueueInit [] :=
  ⟨[], [], [], .nil, .nil, .none, rfl⟩

/-- `FlushOpaque` sends what is pending. -/
lemma QueueStores.flush {idstring : CString} (h : QueueStores recordSize idstring q calls)
    (channel : CString) :
    QueueStores recordSize idstring (flushOpaque { q with lastChan := channel }) calls := by
  obtain ⟨stored, before, pending, hsent, hlayout, hpending, rfl⟩ := h
  simp only [flushOpaque]
  generalize q.pending = buffer at hpending
  cases hpending with
  | none =>
    refine ⟨stored, before, [], ?_, hlayout, .none, rfl⟩
    simpa using hsent
  | @record record first more hrecord _ =>
    refine ⟨stored ++ [.whole first more], before ++ first :: more, [], ?_,
      hlayout.whole hrecord.same, .none, (List.append_nil _).symm⟩
    exact List.rel_append hsent (List.Forall₂.cons hrecord .nil)

/-- What is in the records after a flush. -/
lemma QueueStores.sent {idstring : CString} (h : QueueStores recordSize idstring q calls) :
    ∃ stored, List.Forall₂ (StoredAs recordSize idstring) (flushOpaque q).sent stored ∧
      Layout (freeSpace recordSize idstring) stored calls := by
  obtain ⟨stored, before, pending, hsent, hlayout, hpending, rfl⟩ := h.flush q.lastChan
  obtain rfl : pending = [] := by
    cases hpending
    rfl
  rw [List.append_nil]
  exact ⟨stored, hsent, hlayout⟩

/-- A message starts a record, or is sent at once. -/
lemma QueueStores.create (h : QueueStores recordSize name.idstring q calls)
    (hnone : q.pending = none) (hchannel : q.lastChan = call.channel)
    (hmakes : Makes recordSize name.idstring call.data code) (hdata : call.data ≠ []) :
    ∃ q', createOpaque name recordSize q call = .ok q' ∧
      QueueStores recordSize name.idstring q' (calls ++ [call]) := by
  obtain ⟨stored, before, pending, hsent, hlayout, hpending, rfl⟩ := h
  obtain rfl : pending = [] := by
    rw [hnone] at hpending
    cases hpending
    rfl
  obtain ⟨multi, records, hmake⟩ : ∃ multi records, makeOpaqueSeed q.multi call.data (q.seqno + 1)
      name call.channel recordSize call.now = .ok (multi, records) :=
    ⟨_, _, makeOpaqueSeed_eq hmakes hdata⟩
  have hfragments := makeOpaqueSeed_fragments hmake hdata
  have hcount := (numRecords_bounds hfragments.free hdata).2.2
  have hlen := hfragments.packed.length_eq
  rw [List.length_range] at hlen
  have hcreate : createOpaque name recordSize q call = if records.length > 1
      then .ok (flushOpaque
        { q with seqno := q.seqno + 1, multi := multi, pending := some records })
      else .ok { q with seqno := q.seqno + 1, multi := multi, pending := some records } := by
    rw [createOpaque, hmake]
    rfl
  rw [hcreate, List.append_nil]
  by_cases hmany : records.length > 1
  · rw [if_pos hmany]
    refine ⟨_, rfl, stored ++ fragmentsOf (freeSpace recordSize name.idstring) call,
      before ++ [call], [], ?_, hlayout.fragments (hlen ▸ hmany), .none, (List.append_nil _).symm⟩
    refine List.rel_append hsent (List.forall₂_map_right_iff.mpr ?_)
    exact hfragments.packed.imp fun _ _ hpacked => .fragment hpacked
  · rw [if_neg hmany]
    refine ⟨_, rfl, stored, before, [call], hsent, hlayout, ?_, rfl⟩
    obtain ⟨record, rfl⟩ := List.length_eq_one_iff.mp (show records.length = 1 by omega)
    have hpacked := hfragments.packed
    have hone : numRecords call.data.length (freeSpace recordSize name.idstring) = 1 := by
      rw [← hlen]
      rfl
    rw [hone] at hpacked
    have hfirst := (List.forall₂_cons.mp hpacked).1
    refine .record (.whole hfirst (List.Forall₂.cons ⟨?_, ?_, rfl⟩ .nil)) (by rw [hchannel])
    · rfl
    · rw [opaqueBlockette_one]
      rfl

/-- One call of `QueueOpaque`. -/
lemma QueueStores.queue (h : QueueStores recordSize name.idstring q calls)
    (hmakes : Makes recordSize name.idstring call.data code) (hdata : call.data ≠ []) :
    ∃ q', queueOpaque name recordSize q call = .ok q' ∧
      QueueStores recordSize name.idstring q' (calls ++ [call]) := by
  unfold queueOpaque
  by_cases hother : q.lastChan ≠ call.channel
  · -- what is pending is of another channel
    simp only [if_pos hother]
    exact (h.flush call.channel).create rfl rfl hmakes hdata
  have hchannel : q.lastChan = call.channel := not_not.mp hother
  simp only [if_neg hother]
  obtain ⟨stored, before, pending, hsent, hlayout, hpending, hcalls⟩ := id h
  generalize hbuffer : q.pending = buffer at hpending
  cases hpending with
  | none => exact h.create hbuffer hchannel hmakes hdata
  | @record record first more hrecord hfirst =>
    cases hrecord with
    | @whole channel _ init last _ _ hpacked hall =>
      rcases appendOpaqueSeed_packed call.data hpacked (Or.inl hdata) with hfull | hroom
      · simp only [hfull]
        exact (h.flush q.lastChan).create rfl hchannel hmakes hdata
      · obtain ⟨record', happend, hpacked'⟩ := hroom
        simp only [happend]
        have hsame : nameField 3 call.channel = channel := by
          obtain ⟨b, -, hb, -, -⟩ := List.forall₂_cons_right_iff.mp hall
          rw [← hchannel, ← hfirst, hb.2.2]
        have hall' := List.rel_append hall (List.Forall₂.cons
          (show _ from ⟨rfl, rfl, hsame⟩ : (fun b (c : OpaqueCall) => b.flags = 0x00 ∧
            b.data = c.data ∧ nameField 3 c.channel = channel) (appendedBlockette call.data) call)
          .nil)
        refine ⟨_, rfl, stored, before, first :: more ++ [call], hsent, hlayout,
          .record (.whole hpacked' hall') hfirst, ?_⟩
        rw [hcalls, List.append_assoc]

lemma QueueStores.run (h : QueueStores recordSize name.idstring q calls) (ops : List QueueOp)
    (hmakes : ∀ call ∈ queuedCalls ops, Makes recordSize name.idstring call.data code)
    (hdata : ∀ call ∈ queuedCalls ops, call.data ≠ []) :
    ∃ q', ops.foldlM (QueueOp.run name recordSize) q = .ok q' ∧
      QueueStores recordSize name.idstring q' (calls ++ queuedCalls ops) := by
  induction ops generalizing q calls with
  | nil => exact ⟨q, rfl, by rwa [queuedCalls, List.filterMap_nil, List.append_nil]⟩
  | cons op ops ih =>
    cases op with
    | queue call =>
      have hqueued : queuedCalls (.queue call :: ops) = call :: queuedCalls ops := rfl
      rw [hqueued] at hmakes hdata ⊢
      obtain ⟨hmakes, hmakes'⟩ := List.forall_mem_cons.mp hmakes
      obtain ⟨hdata, hdata'⟩ := List.forall_mem_cons.mp hdata
      obtain ⟨q', hq', hstores⟩ := h.queue hmakes hdata
      obtain ⟨q'', hrun, hlast⟩ := ih hstores hmakes' hdata'
      refine ⟨q'', ?_, ?_⟩
      · rw [List.foldlM_cons]
        simp only [QueueOp.run, hq']
        exact hrun
      · rwa [List.append_assoc] at hlast
    | flush => exact ih (h.flush q.lastChan) hmakes hdata

end Queue

end StationProcessor
