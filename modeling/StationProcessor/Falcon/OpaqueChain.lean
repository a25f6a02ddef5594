import StationProcessor.Falcon.OpaqueRead

/-!
# Messages appended to one record

A record of one message to which `AppendOpaqueSeed` adds any others: the chain of its blockettes
lists the messages that were accepted, in their order, whatever their sizes are.
-/

namespace StationProcessor

/-! ### The chain -/

/-- The offsets of the blockettes from the one at `i` on, each read from the one before. `none` is a
chain that has not ended within `fuel` blockettes. -/
def chainFrom (record : Bytes) : ℕ → ℕ → Option (List ℕ)
  | 0, i => if i = 0 then some [] else none
  | fuel + 1, i =>
    if i = 0 then some []
    else (chainFrom record fuel (shortAt (record.drop i) 2)).map (i :: ·)

/-- The offsets of the blockettes of a record. -/
def chainOffsets (record : Bytes) : Option (List ℕ) :=
  chainFrom record record.length (shortAt record 46)

/-- A blockette lies at this offset of a record, inside it and aligned. -/
structure BlocketteAt (record : Bytes) (offset : ℕ) (b : Blockette) : Prop where
  aligned : 4 ∣ offset
  inside : offset + b.size ≤ record.length
  starts : StartsWith (record.drop offset) b

/-- A record of some size, in which the blockette 1000 is followed by these blockettes 2000, and
the number of blockettes counts all of them. -/
structure ChainHolds (recordSize : ℕ) (record : Bytes) (bs : List Blockette) : Prop where
  length : record.length = recordSize
  chain : ∃ offsets, chainOffsets record = some (48 :: offsets) ∧
    List.Forall₂ (BlocketteAt record) offsets bs
  count : (record.getD 39 0).toNat = bs.length + 1

section Packed

variable {recordSize offset fuel : ℕ} {record channel rest : Bytes} {init : List Blockette}
  {last : Blockette}

/-- The walk over blockettes that lie one behind the other. -/
lemma chainFrom_linked
    (h : record.drop offset = linked offset init ++ (last.toBytes 0 ++ rest))
    (hroom : endOffset offset init + last.size ≤ record.length) (hfits : record.length < 65536)
    (haligned : 4 ∣ offset) (hoffset : 0 < offset) (hfuel : init.length < fuel) :
    ∃ offsets, chainFrom record fuel offset = some offsets ∧
      List.Forall₂ (BlocketteAt record) offsets (init ++ [last]) := by
  induction init generalizing offset fuel with
  | nil =>
    obtain ⟨fuel, rfl⟩ := Nat.exists_eq_add_one_of_ne_zero hfuel.ne'
    have hread : record.drop offset = last.toBytes 0 ++ rest := h
    have hlast : offset + last.size ≤ record.length := hroom
    refine ⟨[offset], ?_, List.Forall₂.cons ⟨haligned, hlast, by omega, 0, rest, hread⟩ .nil⟩
    rw [chainFrom, if_neg hoffset.ne', hread, last.shortAt_next (by norm_num)]
    cases fuel <;> rfl
  | cons b bs ih =>
    obtain ⟨fuel, rfl⟩ := Nat.exists_eq_add_one_of_ne_zero (Nat.ne_of_gt (Nat.zero_lt_of_lt hfuel))
    have hle := le_nextOffset offset b
    have hend := le_endOffset (nextOffset offset b) bs
    have hroom' : endOffset (nextOffset offset b) bs + last.size ≤ record.length := hroom
    simp only [linked, List.append_assoc] at h
    obtain ⟨offsets, hoffsets, hall⟩ := ih (drop_nextOffset h) hroom' (Nat.dvd_mul_left 4 _)
      (by omega) (Nat.lt_of_succ_lt_succ hfuel)
    refine ⟨offset :: offsets, ?_,
      List.Forall₂.cons ⟨haligned, by omega, by omega, _, _, h⟩ hall⟩
    rw [chainFrom, if_neg hoffset.ne', h, b.shortAt_next (by omega), hoffsets]
    rfl

/-- A packed record holds its blockettes. -/
lemma Packed.chainHolds (h : Packed recordSize channel init last record) :
    ChainHolds recordSize record (init ++ [last]) := by
  obtain ⟨h46, -, hnext⟩ := h.offsets
  obtain ⟨rest, hdrop⟩ := h.drop
  have hlen := h.length
  have hroom := h.room
  have hfits := h.fits
  have hmany := add_length_le_endOffset 56 init
  obtain ⟨fuel, hfuel⟩ := Nat.exists_eq_add_one_of_ne_zero (show record.length ≠ 0 by omega)
  obtain ⟨offsets, hoffsets, hall⟩ : ∃ offsets, chainFrom record fuel 56 = some offsets ∧
      List.Forall₂ (BlocketteAt record) offsets (init ++ [last]) :=
    chainFrom_linked hdrop (by omega) (by omega) (by norm_num) (by norm_num) (by omega)
  refine ⟨hlen, ⟨offsets, ?_, hall⟩, ?_⟩
  · rw [chainOffsets, hfuel, h46, chainFrom, if_neg (by norm_num), hnext, hoffsets]
    rfl
  · obtain ⟨⟨front, code, hfront, -, rfl⟩, -, hcount, -⟩ := h
    have hread : (packed front code recordSize init last).getD 39 0
        = UInt8.ofNat (init.length + 2) := getD_append_cons hfront _
    rw [hread, UInt8.toNat_ofNat_of_lt' (by show init.length + 2 < 256; omega),
      List.length_append]
    rfl

end Packed

/-! ### Appending any messages -/

/-- A call of `AppendOpaqueSeed`: the record, and the messages that were accepted. -/
def appendMessage (recordSize : ℕ) (s : Bytes × List Bytes) (data : Bytes) : Bytes × List Bytes :=
  match appendOpaqueSeed s.1 data recordSize with
  | none => s
  | some record => (record, s.2 ++ [data])

/-- Calls of `AppendOpaqueSeed` for one message after the other. -/
def appendMessages (recordSize : ℕ) (record : Bytes) (messages : List Bytes) : Bytes × List Bytes :=
  messages.foldl (appendMessage recordSize) (record, [])

/-- The blockette of a message that `MakeOpaqueSeed` puts into one record. -/
def madeBlockette (data : Bytes) (idstring : CString) : Blockette where
  recordNumber := 0
  flags := 0x00
  headerFields := headerFields idstring
  header := headerField idstring
  data := data

lemma opaqueBlockette_one (multi : ℕ) (data : Bytes) (idstring : CString) (free : ℕ) :
    opaqueBlockette multi data idstring free 1 0 = madeBlockette data idstring := by
  simp [opaqueBlockette, madeBlockette, dataFlags, dataPart]

lemma dvd_of_recordLengthCode {recordSize : ℕ} {code : UInt8}
    (h : recordLengthCode recordSize = some code) : 4 ∣ recordSize := by
  unfold recordLengthCode at h
  split at h
  all_goals first | contradiction | norm_num

section Runs

variable {recordSize : ℕ} {channel : Bytes}

/-- A record in which these blockettes are packed. -/
def PacksAll (recordSize : ℕ) (channel record : Bytes) (bs : List Blockette) : Prop :=
  ∃ init last, bs = init ++ [last] ∧ Packed recordSize channel init last record

/-- What one call does. -/
lemma appendMessage_packsAll (hfour : 4 ∣ recordSize) {first : Blockette} {s : Bytes × List Bytes}
    (h : PacksAll recordSize channel s.1 (first :: s.2.map appendedBlockette)) (data : Bytes) :
    PacksAll recordSize channel (appendMessage recordSize s data).1
      (first :: (appendMessage recordSize s data).2.map appendedBlockette) := by
  obtain ⟨init, last, hbs, hpacked⟩ := h
  unfold appendMessage
  rcases appendOpaqueSeed_packed data hpacked (Or.inr hfour) with hnone | hsome
  · rw [hnone]
    exact ⟨init, last, hbs, hpacked⟩
  · obtain ⟨record', happend, hpacked'⟩ := hsome
    rw [happend]
    refine ⟨init ++ [last], appendedBlockette data, ?_, hpacked'⟩
    rw [List.map_append, ← List.cons_append, hbs]
    rfl

lemma appendMessages_packsAll (hfour : 4 ∣ recordSize) {first : Blockette} {s : Bytes × List Bytes}
    (h : PacksAll recordSize channel s.1 (first :: s.2.map appendedBlockette))
    (messages : List Bytes) :
    PacksAll recordSize channel (messages.foldl (appendMessage recordSize) s).1
      (first :: (messages.foldl (appendMessage recordSize) s).2.map appendedBlockette) := by
  induction messages generalizing s with
  | nil => exact h
  | cons data messages ih => exact ih (appendMessage_packsAll hfour h data)

end Runs

section Make

variable {multi multi' seqno recordSize : ℕ} {data record : Bytes} {name : OpaqueName}
  {channel : CString} {now : ℕ → Utc}

/-- A message that fits a record is not empty. -/
lemma ne_nil_of_makeOpaqueSeed
    (h : makeOpaqueSeed multi data seqno name channel recordSize now = .ok (multi', [record])) :
    data ≠ [] := by
  rintro rfl
  have hzero : ∀ free : ℕ, free ≠ 0 → numRecords 0 free = 0 := by
    intro free hfree
    exact Nat.div_eq_of_lt (by omega)
  unfold makeOpaqueSeed at h
  by_cases hfree : freeSpace recordSize name.idstring = 0
  · simp [hfree] at h
  · simp [hfree, hzero _ hfree] at h

/-- After any calls of `AppendOpaqueSeed` on a record of one message, the chain of its blockettes
lists that message and those that were accepted. -/
theorem appendMessages_chain
    (h : makeOpaqueSeed multi data seqno name channel recordSize now = .ok (multi', [record]))
    (messages : List Bytes) :
    ChainHolds recordSize (appendMessages recordSize record messages).1
      (madeBlockette data name.idstring ::
        (appendMessages recordSize record messages).2.map appendedBlockette) := by
  have hdata := ne_nil_of_makeOpaqueSeed h
  obtain ⟨code, hmakes⟩ := makes_of_ok h hdata
  have hfragments := (makeOpaqueSeed_fragments h hdata).packed
  have hone : numRecords data.length (freeSpace recordSize name.idstring) = 1 := by
    simpa using hfragments.length_eq.symm
  rw [hone] at hfragments
  have hpacked : Packed recordSize (nameField 3 channel) []
      (madeBlockette data name.idstring) record := by
    have hfirst := (List.forall₂_cons.mp hfragments).1
    rwa [opaqueBlockette_one] at hfirst
  obtain ⟨init, last, hbs, hlast⟩ := appendMessages_packsAll (dvd_of_recordLengthCode hmakes.code)
    (s := (record, [])) ⟨[], _, rfl, hpacked⟩ messages
  rw [appendMessages, hbs]
  exact hlast.chainHolds

/-- A name with an id string of one field. -/
def ofaName : OpaqueName where
  station := ⟨ascii "ANMO", zero_notMem_anmo⟩
  network := ⟨ascii "IU", zero_notMem_iu⟩
  location := ⟨[], zero_notMem_nil⟩
  idstring := ⟨ascii "FALCON~", by decide⟩

/-- A record of 256 bytes with a message of two. -/
def ofaRecord : Bytes :=
  opaqueRecord (headerFront 1 ofaName ⟨ascii "OFA", zero_notMem_ofa⟩ ⟨2020, 1, 0, 0, 0⟩) 8
    (opaqueBlockette 0 [1, 2] ofaName.idstring (freeSpace 256 ofaName.idstring) 1 0) 256

theorem appendMessages_chain_three :
    ChainHolds 256 (appendMessages 256 ofaRecord [[3], [], [4, 5, 6]]).1
      (madeBlockette [1, 2] ofaName.idstring ::
        (appendMessages 256 ofaRecord [[3], [], [4, 5, 6]]).2.map appendedBlockette) :=
  @appendMessages_chain 0 0 1 256 [1, 2] ofaRecord ofaName ⟨ascii "OFA", zero_notMem_ofa⟩
    (fun _ => ⟨2020, 1, 0, 0, 0⟩) (by rfl) _

/-- All three messages are accepted, also the empty one. -/
example : (appendMessages 256 ofaRecord [[3], [], [4, 5, 6]]).2 = [[3], [], [4, 5, 6]] := by
  decide +kernel

end Make

end StationProcessor
