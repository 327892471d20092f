import CppFragments.WebSocket.SeenHeader

/-! # Which bytes the decoder accepts

Whatever it makes of the bytes ahead, an answer of 0 has changed nothing. Which
bytes a fresh packet accepts as a frame, and where that is not right.
-/

namespace CppFragments

open Outcome ByteBuffer WebSocketPacket

namespace WebSocketPacket

variable {packet : WebSocketPacket} {input : ByteBuffer}

/-! ## The answer 0 -/

/-- An empty unmasked payload changes nothing. -/
theorem fetchPayload_zero (hsound : input.Sound) (hmask : packet.mask ≠ 1)
    (hlength : packet.payloadLength = 0) :
    Ensures (fun result => result = (packet, input)) (fetchPayload packet input) := by
  have hsize : toInt32 ((0 : UInt64).toNat : Int) = ((0 : Nat) : Int) := by decide
  have hskip : (input.skipX ((0 : Nat) : Int)).2 = input := by
    rw [hsound.skipX_eq (by decide), if_pos (Nat.zero_le _), advance_zero]
  unfold fetchPayload
  rw [if_neg hmask, hlength, hsize]
  refine (ensures_true _).bind fun pointer _ => ?_
  rw [append_of_le _ (Nat.zero_le _)]
  simp only [ok_bind, pure_eq_ok, hskip, List.take_zero, List.append_nil]
  exact (ensures_ok _).mpr (by rw [← hlength])

/-- With nothing ahead the header read is that of an empty unmasked frame. -/
theorem recvDataframe_of_nil (hsound : input.Sound) (hahead : input.ahead = []) :
    Ensures (fun result => result.2.2 = input ∧ result.2.1.payload = packet.payload)
      (recvDataframe packet input) := by
  have hpast : pastHeader input = input := by
    rw [pastHeader, hahead, seenHeader_nil, advance_zero]
  have hmask : (headed packet input).mask ≠ 1 := by
    rw [headed, hahead, seenHeader_nil]
    change ¬ (0 : UInt8) >>> 7 = 1
    decide
  have hlength : (headed packet input).payloadLength = 0 := by
    rw [headed, hahead, seenHeader_nil]
    rfl
  by_cases hfits : Fits packet input
  · rw [recvDataframe_of_fits hsound hfits, hpast]
    refine (fetchPayload_zero hsound hmask hlength).bind ?_
    rintro result rfl
    exact (ensures_ok _).mpr ⟨rfl, headed_payload packet input⟩
  · rw [recvDataframe_of_not_fits hsound hfits]
    exact (ensures_ok _).mpr ⟨rfl, headed_payload packet input⟩

/-- **An answer of 0 leaves the input and the payload as they were**, wherever
the header was cut. -/
theorem recvDataframe_zero_unchanged (packet : WebSocketPacket) {input : ByteBuffer}
    (hsound : input.Sound) {packet' : WebSocketPacket} {input' : ByteBuffer}
    (hrecv : recvDataframe packet input = .ok (0, packet', input')) :
    input' = input ∧ packet'.payload = packet.payload := by
  by_cases hahead : input.ahead = []
  · exact recvDataframe_of_nil hsound hahead _ hrecv
  by_cases hfits : Fits packet input
  · exfalso
    have hpos : 0 < (pastHeader input).oft.toNat := by
      have hmin := min_two_le_size input.ahead
      have hlength := List.length_pos_iff.mpr hahead
      rw [pastHeader_oft hsound]
      omega
    have hnonzero : Ensures (fun result => result.1 ≠ 0) (recvDataframe packet input) := by
      intro result hresult
      obtain ⟨hmoves, hoffset⟩ := recvDataframe_ensures_of_fits hsound hfits result hresult
      have hle := hmoves.oft_le
      have hlt := hmoves.sound.oft_add_ahead_lt
      rw [hoffset]
      exact uint64_ofNat_ne_zero (by omega) (by omega)
    exact hnonzero _ hrecv rfl
  · rw [recvDataframe_of_not_fits hsound hfits] at hrecv
    simp only [Except.ok.injEq, Prod.mk.injEq, true_and] at hrecv
    obtain ⟨rfl, rfl⟩ := hrecv
    exact ⟨rfl, headed_payload packet _⟩

/-- A frame cut after three bytes. -/
theorem recvDataframe_zero_unchanged_cut :
    ∃ packet' input',
      recvDataframe (new #v[0, 0, 0, 0]) ⟨[0x07, 0x81, 0x05, 0x61], 1⟩ =
        .ok (0, packet', input') ∧
      input' = ⟨[0x07, 0x81, 0x05, 0x61], 1⟩ ∧ packet'.payload = .empty := by
  have hrecv : recvDataframe (new #v[0, 0, 0, 0]) ⟨[0x07, 0x81, 0x05, 0x61], 1⟩ =
      .ok (0,
        { new #v[0, 0, 0, 0] with fin := 1, opcode := 1, lengthType := 5, payloadLength := 5 },
        ⟨[0x07, 0x81, 0x05, 0x61], 1⟩) := by
    decide +kernel
  exact ⟨_, _, hrecv, recvDataframe_zero_unchanged (new #v[0, 0, 0, 0]) (by decide) hrecv⟩

/-! ## Other answers -/

/-- A frame found complete is moved over, unless its payload starts at the end. -/
theorem recvDataframe_of_more (hsound : input.Sound) (hfits : Fits packet input)
    (hlt : (headed packet input).payloadLength.toNat < 2 ^ 63)
    (hmore : (headed packet input).mask = 1 ∨ (seenHeader input.ahead).size < input.ahead.length) :
    recvDataframe packet input =
      .ok (UInt64.ofNat (input.oft.toNat + ((seenHeader input.ahead).size +
          (headed packet input).payloadLength.toNat)),
        (headed packet input).filled ((input.ahead.drop (seenHeader input.ahead).size).take
          (headed packet input).payloadLength.toNat),
        input.advance ((seenHeader input.ahead).size +
          (headed packet input).payloadLength.toNat)) := by
  have hle := (fits_iff hsound hlt).mp hfits
  have hahead : (headed packet input).payloadLength.toNat ≤ (pastHeader input).ahead.length := by
    rw [pastHeader_ahead hsound, List.length_drop]
    omega
  have hpast : (headed packet input).mask = 1 ∨ (pastHeader input).ahead ≠ [] := by
    rcases hmore with hmask | hmore
    · exact Or.inl hmask
    · refine Or.inr (List.ne_nil_of_length_pos ?_)
      rw [pastHeader_ahead hsound, List.length_drop]
      omega
  have hmoved : (seenHeader input.ahead).size + (headed packet input).payloadLength.toNat ≤
      input.ahead.length := by omega
  rw [recvDataframe_of_fits hsound hfits,
    fetchPayload_sound (pastHeader_sound hsound) _ hahead hpast]
  simp only [ok_bind, pure_eq_ok]
  rw [pastHeader_ahead hsound, pastHeader, advance_advance, (hsound.advance hmoved).getoft_eq,
    hsound.advance_oft hmoved, uint64_ofInt_natCast]

/-- `curat` throws on a payload that starts at the end of the data. -/
theorem recvDataframe_of_end (hsound : input.Sound) (hfits : Fits packet input)
    (hmask : (headed packet input).mask ≠ 1) (hlength : input.length ≠ 0)
    (hend : input.data.length ≤ input.oft.toNat + (seenHeader input.ahead).size) :
    recvDataframe packet input = .error .outOfRange := by
  have hcurat : (pastHeader input).curat = .error .outOfRange := by
    apply curat_eq_outOfRange
    · rwa [pastHeader, advance_length]
    · rwa [pastHeader_oft hsound, pastHeader, advance_data]
  rw [recvDataframe_of_fits hsound hfits]
  unfold fetchPayload
  rw [if_neg hmask, hcurat]
  simp only [error_bind]

end WebSocketPacket

/-! ## What a fresh packet accepts -/

/-- What a fresh packet takes for the payload length. -/
def freshLength (bytes : List UInt8) : Nat :=
  (storedLength (seenHeader bytes).code (seenHeader bytes).extension 0).toNat

/-- The bytes begin with what a fresh packet takes for a complete frame. -/
def Taken (bytes : List UInt8) : Prop :=
  freshLength bytes + (seenHeader bytes).size ≤ bytes.length ∧
    ((seenHeader bytes).mask = 1 ∨ (seenHeader bytes).size < bytes.length)

def RightlyTaken (bytes : List UInt8) : Prop :=
  (Taken bytes → Frame.declaredSize bytes = some ((seenHeader bytes).size + freshLength bytes)) ∧
    (Frame.Complete bytes → Taken bytes)

/-- The bytes that a fresh packet judges wrongly. -/
def Misjudged : List UInt8 → Prop
  | [] => False
  | [first] =>
      -- The one byte is taken for both header bytes of an empty masked frame.
      first >>> 7 = 1 ∧ (first &&& 0x7F = 0 ∨ first &&& 0x7F = 126 ∨ first &&& 0x7F = 127)
  | _ :: second :: rest =>
      let code := second &&& 0x7F
      if second >>> 7 = 1 then
        -- A key that is cut off is not waited for.
        if code < 126 then rest.length < 4 ∧ code.toNat ≤ rest.length
        else if code = 126 then
          rest.length < 6 ∧ (2 ≤ rest.length → Bytes.ofBigEndian (rest.take 2) + 2 ≤ rest.length)
        else rest.length < 12 ∨ Bytes.ofBigEndian (rest.take 8) ≠ 0
      else
        -- An empty payload that starts at the end of the data throws.
        if code < 126 then code = 0 ∧ rest = []
        else if code = 126 then
          rest.length = 1 ∨ rest.length = 2 ∧ Bytes.ofBigEndian (rest.take 2) = 0
        else
          0 < rest.length ∧ rest.length < 8 ∨
            rest.length = 8 ∧ Bytes.ofBigEndian (rest.take 8) = 0 ∨
            8 < rest.length ∧ Bytes.ofBigEndian (rest.take 8) ≠ 0

theorem rightlyTaken_single (first : UInt8) : RightlyTaken [first] ↔ ¬ Misjudged [first] := by
  have hcode := and_127_lt first
  have hzero : freshLength [first] = 0 ↔
      first &&& 0x7F = 0 ∨ first &&& 0x7F = 126 ∨ first &&& 0x7F = 127 := by
    rw [freshLength, seenHeader_single, toNat_storedLength (by simp)]
    change (if first &&& 0x7F < 126 then (first &&& 0x7F).toNat
      else if first &&& 0x7F = 126 then 0 else 0) = 0 ↔ _
    generalize first &&& 0x7F = code at hcode
    by_cases hshort : code < 126
    · simp only [hshort, if_true, ne_of_lt_126 hshort, or_false, eq_zero_iff_toNat]
    · simp only [hshort, if_false, ite_self, true_iff]
      by_cases hmedium : code = 126
      · exact Or.inr (Or.inl hmedium)
      · exact Or.inr (Or.inr (code_eq_127 hcode hshort hmedium))
  simp only [RightlyTaken, Misjudged, Taken, Frame.Complete, seenHeader_single,
    Frame.declaredSize, SeenHeader.mask]
  simp [← hzero, and_comm]

theorem ofBigEndian_whole (rest : List UInt8) :
    Bytes.ofBigEndian (whole 2 rest) =
      if 2 ≤ rest.length then Bytes.ofBigEndian (rest.take 2) else 0 := by
  unfold whole
  split <;> rfl

theorem freshLength_pair (first second : UInt8) (rest : List UInt8) :
    freshLength (first :: second :: rest) =
      if second &&& 0x7F < 126 then (second &&& 0x7F).toNat
      else if second &&& 0x7F = 126 then
        if 2 ≤ rest.length then Bytes.ofBigEndian (rest.take 2) else 0
      else 0 := by
  rw [freshLength, seenHeader_code, seenHeader_extension, toNat_storedLength]
  · split
    · rfl
    · split
      next hmedium => rw [hmedium, ← ofBigEndian_whole]; rfl
      · rfl
  · rw [length_whole]
    split <;> omega

theorem rightlyTaken_iff_ite (first second : UInt8) (rest : List UInt8) :
    RightlyTaken (first :: second :: rest) ↔
      if Frame.extendedWidth (second &&& 0x7F) ≤ rest.length then
        (Taken (first :: second :: rest) →
          2 + Frame.extendedWidth (second &&& 0x7F) + (if second >>> 7 = 1 then 4 else 0) +
            Frame.declaredLength (second &&& 0x7F)
              (rest.take (Frame.extendedWidth (second &&& 0x7F))) =
            (seenHeader (first :: second :: rest)).size + freshLength (first :: second :: rest)) ∧
        (2 + Frame.extendedWidth (second &&& 0x7F) + (if second >>> 7 = 1 then 4 else 0) +
            Frame.declaredLength (second &&& 0x7F)
              (rest.take (Frame.extendedWidth (second &&& 0x7F))) ≤ rest.length + 2 →
          Taken (first :: second :: rest))
      else ¬ Taken (first :: second :: rest) := by
  unfold RightlyTaken Frame.Complete Frame.declaredSize
  dsimp only
  split
  · simp only [Option.some.injEq, exists_eq_left', List.length_cons]
  · simp only [reduceCtorEq, false_and, exists_false, imp_false, false_imp_iff, and_true]

/-- Both header bytes are there: the three length forms, masked or not. -/
theorem rightlyTaken_pair (first second : UInt8) (rest : List UInt8) :
    RightlyTaken (first :: second :: rest) ↔ ¬ Misjudged (first :: second :: rest) := by
  have hmedium : ¬ (126 : UInt8) < 126 := by decide
  rw [rightlyTaken_iff_ite]
  simp only [Misjudged, Taken, freshLength_pair, seenHeader_size, seenHeader_mask,
    List.length_cons, Frame.extendedWidth, Frame.declaredLength, eq_zero_iff_toNat,
    ← List.length_eq_zero_iff]
  generalize second &&& 0x7F = code
  by_cases hcode : code < 126
  · simp only [hcode, if_true]
    generalize rest.length = count
    generalize code.toNat = size
    by_cases hmasked : second >>> 7 = 1
    · simp only [hmasked, if_true, true_and, true_or, and_true]
      split_ifs <;> omega
    · simp only [hmasked, if_false, false_and, false_or]
      split_ifs <;> omega
  by_cases hcode' : code = 126
  · simp only [hcode', hmedium, if_false, if_true]
    generalize rest.length = count
    generalize Bytes.ofBigEndian (rest.take 2) = size
    by_cases hmasked : second >>> 7 = 1
    · simp only [hmasked, if_true, true_and, true_or, and_true]
      split_ifs <;> omega
    · simp only [hmasked, if_false, false_and, false_or]
      split_ifs <;> omega
  · simp only [hcode, hcode', if_false]
    generalize rest.length = count
    generalize Bytes.ofBigEndian (rest.take 8) = size
    by_cases hmasked : second >>> 7 = 1
    · simp only [hmasked, if_true, true_and, true_or, and_true]
      split_ifs <;> omega
    · simp only [hmasked, if_false, false_and, false_or]
      split_ifs <;> omega

theorem rightlyTaken_iff {bytes : List UInt8} (hne : bytes ≠ []) :
    RightlyTaken bytes ↔ ¬ Misjudged bytes := by
  match bytes with
  | [] => exact absurd rfl hne
  | [first] => exact rightlyTaken_single first
  | first :: second :: rest => exact rightlyTaken_pair first second rest

/-- `recvDataframe` returns another value than 0. -/
def Accepts (packet : WebSocketPacket) (input : ByteBuffer) : Prop :=
  ∃ offset packet' input', recvDataframe packet input = .ok (offset, packet', input') ∧ offset ≠ 0

/-- The packet accepts exactly a complete frame, and moves over just that. -/
structure JudgesRightly (packet : WebSocketPacket) (input : ByteBuffer) : Prop where
  accepts_iff : Accepts packet input ↔ Frame.Complete input.rest
  moves : ∀ offset packet' input', recvDataframe packet input = .ok (offset, packet', input') →
    offset ≠ 0 → ∃ size, Frame.declaredSize input.rest = some size ∧
      input'.oft.toNat = input.oft.toNat + size

section Fresh

variable {input : ByteBuffer} (indeterminate : MaskingKey)

/-- A fresh packet as a function of the bytes ahead. -/
theorem headed_new (hsmall : input.data.length < 2 ^ 31) :
    ((new indeterminate).headed input).payloadLength.toNat = freshLength input.rest ∧
      ((new indeterminate).headed input).mask = (seenHeader input.rest).mask := by
  rw [← ahead_eq_rest hsmall]
  exact ⟨rfl, rfl⟩

theorem fits_new_iff (hsmall : input.data.length < 2 ^ 31) (hsound : input.Sound) :
    (new indeterminate).Fits input ↔
      freshLength input.rest + (seenHeader input.rest).size ≤ input.rest.length := by
  have hlength := (headed_new indeterminate hsmall).1
  have hlt : freshLength input.rest < 2 ^ 16 := storedLength_lt input.rest (by decide)
  rw [fits_iff hsound (by omega), hlength, ahead_eq_rest hsmall]

theorem recvDataframe_of_taken (hsmall : input.data.length < 2 ^ 31)
    (hoft : input.oft.toNat < input.data.length) (htaken : Taken input.rest) :
    ∃ packet', recvDataframe (new indeterminate) input =
      .ok (UInt64.ofNat (input.oft.toNat +
          ((seenHeader input.rest).size + freshLength input.rest)), packet',
        input.advance ((seenHeader input.rest).size + freshLength input.rest)) := by
  have hsound := (sound_iff_of_small hsmall).mpr hoft.le
  have hahead := ahead_eq_rest hsmall
  obtain ⟨hlength, hmask⟩ := headed_new indeterminate hsmall
  have hlt : freshLength input.rest < 2 ^ 16 := storedLength_lt input.rest (by decide)
  have hrecv := recvDataframe_of_more hsound
    ((fits_new_iff indeterminate hsmall hsound).mpr htaken.1) (by omega)
    (by rw [hmask, hahead]; exact htaken.2)
  rw [hlength, hahead] at hrecv
  exact ⟨_, hrecv⟩

theorem not_accepts_of_not_taken (hsmall : input.data.length < 2 ^ 31)
    (hoft : input.oft.toNat < input.data.length) (htaken : ¬ Taken input.rest) :
    ¬ Accepts (new indeterminate) input := by
  have hsound := (sound_iff_of_small hsmall).mpr hoft.le
  have hahead := ahead_eq_rest hsmall
  have hsize := SeenHeader.size_le input.rest
  obtain ⟨hlength, hmask⟩ := headed_new indeterminate hsmall
  intro haccepts
  rcases haccepts with ⟨offset, packet', input', hrecv, hne⟩
  by_cases hfits : (new indeterminate).Fits input
  · have hunmasked : ¬ (seenHeader input.rest).mask = 1 ∧
        ¬ (seenHeader input.rest).size < input.rest.length := by
      rw [← not_or]
      exact fun hmore => htaken ⟨(fits_new_iff indeterminate hsmall hsound).mp hfits, hmore⟩
    have hpos : input.length = input.data.length := toInt32_natCast hsmall
    have hrest : input.rest.length = input.data.length - input.oft.toNat := List.length_drop
    rw [recvDataframe_of_end hsound hfits (by rw [hmask]; exact hunmasked.1) (by omega)
      (by rw [hahead]; omega)] at hrecv
    cases hrecv
  · rw [recvDataframe_of_not_fits hsound hfits] at hrecv
    obtain ⟨rfl, _⟩ : 0 = offset ∧ _ := by simpa using hrecv
    exact hne rfl

/-- **A fresh packet accepts exactly the complete frames, but for the
misjudged bytes.** -/
theorem judgesRightly_iff (hsmall : input.data.length < 2 ^ 31)
    (hoft : input.oft.toNat < input.data.length) :
    JudgesRightly (new indeterminate) input ↔ ¬ Misjudged input.rest := by
  have hrest : input.rest.length = input.data.length - input.oft.toNat := List.length_drop
  have hne : input.rest ≠ [] := List.ne_nil_of_length_pos (by omega)
  have hsound := (sound_iff_of_small hsmall).mpr hoft.le
  rw [← rightlyTaken_iff hne]
  by_cases htaken : Taken input.rest
  · obtain ⟨packet', hrecv⟩ := recvDataframe_of_taken indeterminate hsmall hoft htaken
    have hmoved : (input.advance ((seenHeader input.rest).size +
        freshLength input.rest)).oft.toNat =
          input.oft.toNat + ((seenHeader input.rest).size + freshLength input.rest) := by
      apply hsound.advance_oft
      rw [ahead_eq_rest hsmall, Nat.add_comm]
      exact htaken.1
    have hpos := min_two_le_size input.rest
    have hle := htaken.1
    have hnonzero : UInt64.ofNat (input.oft.toNat +
        ((seenHeader input.rest).size + freshLength input.rest)) ≠ 0 :=
      uint64_ofNat_ne_zero (by omega) (by omega)
    -- What is taken is a frame if the size that was seen is the one declared.
    constructor
    · intro hright
      refine ⟨fun _ => ?_, fun _ => htaken⟩
      obtain ⟨size, hdeclared, hsize⟩ := hright.moves _ _ _ hrecv hnonzero
      rw [hmoved, Nat.add_left_cancel_iff] at hsize
      rw [hdeclared, hsize]
    · intro hright
      have hdeclared := hright.1 htaken
      refine ⟨⟨fun _ => ⟨_, hdeclared, by omega⟩, fun _ => ⟨_, _, _, hrecv, hnonzero⟩⟩, ?_⟩
      intro offset packet'' input' hrecv' _
      rw [hrecv] at hrecv'
      obtain ⟨_, _, rfl⟩ : _ ∧ _ ∧ _ := by simpa using hrecv'
      exact ⟨_, hdeclared, hmoved⟩
  · have hrejects := not_accepts_of_not_taken indeterminate hsmall hoft htaken
    constructor
    · intro hright
      refine ⟨fun h => absurd h htaken, fun hcomplete => ?_⟩
      exact absurd (hright.accepts_iff.mpr hcomplete) hrejects
    · intro hright
      refine ⟨⟨fun haccepts => absurd haccepts hrejects, fun hcomplete => ?_⟩, ?_⟩
      · exact absurd (hright.2 hcomplete) htaken
      · intro offset packet' input' hrecv hne
        exact absurd ⟨offset, packet', input', hrecv, hne⟩ hrejects

end Fresh

theorem judgesRightly_iff_hello :
    JudgesRightly (new #v[0, 0, 0, 0]) ⟨[0x07, 0x81, 0x01, 0x61], 1⟩ ↔
      ¬ Misjudged (ByteBuffer.rest ⟨[0x07, 0x81, 0x01, 0x61], 1⟩) :=
  judgesRightly_iff #v[0, 0, 0, 0] (by decide) (by decide)

/-- Of a masked frame with three bytes of payload, the key and all but three
bytes are still missing. The decoder takes these bytes for the payload. -/
theorem cutKey_not_judgesRightly :
    ¬ JudgesRightly (new #v[0, 0, 0, 0]) ⟨[0x81, 0x83, 0x01, 0x02, 0x03], 0⟩ := by
  intro hright
  have hrecv : recvDataframe (new #v[0, 0, 0, 0]) ⟨[0x81, 0x83, 0x01, 0x02, 0x03], 0⟩ =
      .ok (5, { new #v[0, 0, 0, 0] with
        fin := 1, opcode := 1, mask := 1, lengthType := 3, payloadLength := 3,
        payload := ⟨[0x01, 0x02, 0x03], 0⟩ }, ⟨[0x81, 0x83, 0x01, 0x02, 0x03], 5⟩) := by
    decide +kernel
  have hcomplete := hright.accepts_iff.mp ⟨_, _, _, hrecv, by decide⟩
  exact absurd hcomplete (by decide)

end CppFragments
