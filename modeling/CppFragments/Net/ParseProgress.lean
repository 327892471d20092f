import CppFragments.Net.ReceiveRun
import CppFragments.Transition.Climb
import CppFragments.WebSocket.SeenHeader

/-! # The parse loop makes progress

Whatever bytes it is given, a pass through the parse loop leaves the loop or has
read at least two bytes more. The loop is a climb of the offset.
-/

namespace CppFragments

open Outcome ByteBuffer WebSocketPacket LoopState Transition

namespace ByteBuffer

variable {buffer : ByteBuffer}

/-- An offset that reads as one in range is one. -/
theorem sound_of_getoft (hoft : 0 ≤ buffer.getoft)
    (hle : buffer.getoft ≤ buffer.length) : buffer.Sound := by
  have hlt := UInt32.toNat_lt buffer.oft
  have heq : buffer.getoft = buffer.oft.toNat := by
    unfold getoft toInt32 at hoft ⊢
    rw [Int.bmod_def] at hoft ⊢
    split at hoft <;> split <;> omega
  rwa [Sound, ← heq]

end ByteBuffer

/-- In the parse loop. -/
def LoopState.Parsing (state : LoopState) : Prop :=
  ∃ packet, state.point = .parsing packet

/-- What a pass comes to that finds `content` in `recv_buf` and its offset at
`offset`. `later` is `recv_buf` as the pass leaves it. -/
inductive PassOutcome (content : List UInt8) (offset : Int) : LoopState → Prop
  | again (packet : WebSocketPacket) (later msgBuf : ByteBuffer) (hdata : later.data = content)
      (hfurther : offset < later.getoft)
      (hmore : later.getoft + websocketHeaderMinSize < later.length) :
      PassOutcome content offset ⟨.parsing packet, later, msgBuf⟩
  | broken (later msgBuf : ByteBuffer) (hdata : later.data = content)
      (hkept : offset ≤ later.getoft) (hle : later.getoft ≤ later.length)
      (hsuffix : (leaveParsing later msgBuf).recvBuf = ⟨content.drop later.getoft.toNat, 0⟩) :
      PassOutcome content offset (leaveParsing later msgBuf)
  | thrown (fault : Fault) (later msgBuf : ByteBuffer) :
      PassOutcome content offset ⟨.faulted fault, later, msgBuf⟩

section Pass

variable {input : ByteBuffer}

/-- **A decoded frame has at least two bytes**: where `recv_dataframe` does not
return 0, it has moved the offset past them. -/
theorem recvDataframe_progress (hsound : input.Sound) (htwo : 2 ≤ input.ahead.length)
    (packet : WebSocketPacket) :
    Ensures (fun result => input.MovesTo result.2.2 ∧
        (result.1.toUInt32 = 0 ∨ input.oft.toNat + 2 ≤ result.2.2.oft.toNat))
      (recvDataframe packet input) := by
  by_cases hfits : Fits packet input
  · intro result hresult
    obtain ⟨hmoves, _⟩ := recvDataframe_ensures_of_fits hsound hfits result hresult
    have hheader : input.MovesTo (pastHeader input) :=
      hsound.advance_movesTo (SeenHeader.size_le input.ahead)
    have hsize := min_two_le_size input.ahead
    have hpast := hmoves.oft_le
    rw [pastHeader_oft hsound] at hpast
    rw [Nat.min_eq_left htwo] at hsize
    exact ⟨hheader.trans hmoves, Or.inr (by omega)⟩
  · rw [recvDataframe_of_not_fits hsound hfits, ensures_ok]
    exact ⟨hsound.movesTo_refl, Or.inl rfl⟩

theorem decodeFrame_progress (hsound : input.Sound) (htwo : 2 ≤ input.ahead.length)
    (packet : WebSocketPacket) (msgBuf : ByteBuffer) :
    Ensures (fun result => input.MovesTo result.2 ∧
        (result.1.isSome → input.oft.toNat + 2 ≤ result.2.oft.toNat))
      (decodeFrame packet input msgBuf) := by
  unfold decodeFrame
  refine (recvDataframe_progress hsound htwo packet).bind ?_
  intro result hresult
  rcases result with ⟨offset, packet', later⟩
  rcases hresult with ⟨hmoves, hprogress⟩
  dsimp only
  split
  · simpa using hmoves
  next hoffset =>
    refine (ensures_true _).bind fun msgBuf' _ => ?_
    simpa using ⟨hmoves, hprogress.resolve_left hoffset⟩

variable {parse : List UInt8 → Option JsonValue} {later : ByteBuffer}

theorem passOutcome_leaveParsing (hmoves : input.MovesTo later)
    (hsmall : input.data.length < 2 ^ 31) (hsound : input.Sound) (msgBuf : ByteBuffer) :
    PassOutcome input.data input.getoft (leaveParsing later msgBuf) := by
  have hlater : later.data.length < 2 ^ 31 := by rwa [hmoves.data]
  have hoft := hmoves.oft_le
  have hrange : (later.oft.toNat : Int) ≤ later.length := hmoves.sound
  refine .broken later msgBuf hmoves.data ?_ ?_ ?_
  · rw [hsound.getoft_eq, hmoves.sound.getoft_eq]
    omega
  · rwa [hmoves.sound.getoft_eq]
  · rw [leaveParsing, hmoves.sound.resetoft_erase hlater, hmoves.data]

theorem passOutcome_afterFrame (hmoves : input.MovesTo later)
    (hfurther : input.oft.toNat + 2 ≤ later.oft.toNat) (hsmall : input.data.length < 2 ^ 31)
    (hsound : input.Sound) (packet : WebSocketPacket) (msgBuf : ByteBuffer) :
    PassOutcome input.data input.getoft (afterFrame packet later msgBuf) := by
  unfold afterFrame
  split
  · exact passOutcome_leaveParsing hmoves hsmall hsound msgBuf
  next hmore =>
    refine .again _ later msgBuf hmoves.data ?_ (Int.not_le.mp hmore)
    rw [hsound.getoft_eq, hmoves.sound.getoft_eq]
    omega

/-- **Every pass leaves the loop or moves the offset forward.** -/
theorem parseOnce_outcome (sslWrite : List UInt8 → Int) (hsound : input.Sound)
    (htwo : 2 ≤ input.ahead.length) (hsmall : input.data.length < 2 ^ 31)
    (packet : WebSocketPacket) (msgBuf : ByteBuffer) :
    PassOutcome input.data input.getoft (parseOnce parse sslWrite packet input msgBuf).2 := by
  have hprogress := decodeFrame_progress hsound htwo packet msgBuf
  rw [parseOnce]
  cases hdecode : decodeFrame packet input msgBuf with
  | error fault => exact .thrown fault input msgBuf
  | ok result =>
      rcases result with ⟨_ | ⟨packet', msgBuf'⟩, later⟩
      · -- `recv_dataframe` returned 0.
        obtain ⟨hmoves, _⟩ := hprogress _ hdecode
        exact passOutcome_leaveParsing hmoves hsmall hsound msgBuf
      · have hmoves : input.MovesTo later := (hprogress _ hdecode).1
        have hfurther : input.oft.toNat + 2 ≤ later.oft.toNat := (hprogress _ hdecode).2 rfl
        rw [afterDecode]
        by_cases hfin : packet'.fin = 1
        · rw [if_pos hfin]
          obtain ⟨texts, outcome⟩ := processOneMessage parse (some sslWrite) packet' msgBuf'
          cases outcome with
          | error fault => exact .thrown fault later msgBuf'
          | ok processed =>
              rw [afterMessage]
              dsimp only
              exact passOutcome_afterFrame hmoves hfurther hsmall hsound _ _
        · rw [if_neg hfin]
          dsimp only
          exact passOutcome_afterFrame hmoves hfurther hsmall hsound _ _

end Pass

/-! ## The whole loop -/

/-- At the head of the parse loop, with more than the size of the smallest frame
still to come in a `recv_buf` that holds `content`. -/
structure LoopState.Ahead (content : List UInt8) (state : LoopState) : Prop where
  parsing : state.Parsing
  data : state.recvBuf.data = content
  sound : state.recvBuf.Sound
  more : state.recvBuf.getoft + websocketHeaderMinSize < state.recvBuf.length

section Run

variable {parse : List UInt8 → Option JsonValue} {content : List UInt8}
variable {source target state : LoopState} {event : LoopEvent} {moves : LoopMoves}

theorem ahead_of_more {packet : WebSocketPacket} {recvBuf : ByteBuffer} (msgBuf : ByteBuffer)
    (hdata : recvBuf.data = content) (hoft : 0 ≤ recvBuf.getoft)
    (hmore : recvBuf.getoft + websocketHeaderMinSize < recvBuf.length) :
    Ahead content ⟨.parsing packet, recvBuf, msgBuf⟩ := by
  have hle : recvBuf.getoft ≤ recvBuf.length := by
    rw [websocketHeaderMinSize] at hmore
    omega
  exact ⟨⟨packet, rfl⟩, hdata, sound_of_getoft hoft hle, hmore⟩

theorem LoopState.Ahead.getoft_nonneg (hahead : source.Ahead content) :
    0 ≤ source.recvBuf.getoft := by
  rw [hahead.sound.getoft_eq]
  exact Int.natCast_nonneg _

theorem LoopState.Ahead.outcome (hahead : source.Ahead content) (hsmall : content.length < 2 ^ 31)
    (hstep : LoopStep parse source event target) :
    PassOutcome content source.recvBuf.getoft target := by
  obtain ⟨⟨packet, hpoint⟩, hdata, hsound, hmore⟩ := hahead
  have hlength := hsound.length_ahead
  rw [hsound.getoft_eq, websocketHeaderMinSize] at hmore
  cases hstep with
  | parse sslWrite packet recvBuf msgBuf =>
      dsimp only at hdata hsound hlength hmore ⊢
      subst hdata
      exact parseOnce_outcome sslWrite hsound (by omega) hsmall packet msgBuf
  | _ => cases hpoint

/-- What a pass that goes round again leaves is like what it found. -/
theorem LoopState.Ahead.step (hahead : source.Ahead content) (hsmall : content.length < 2 ^ 31)
    (hstep : LoopStep parse source event target) (hparsing : target.Parsing) :
    target.Ahead content ∧ source.recvBuf.getoft < target.recvBuf.getoft := by
  have houtcome := hahead.outcome hsmall hstep
  have hoft := hahead.getoft_nonneg
  obtain ⟨packet, hpoint⟩ := hparsing
  cases houtcome with
  | again packet later msgBuf hdata hfurther hmore =>
      exact ⟨ahead_of_more msgBuf hdata (by omega) hmore, hfurther⟩
  | broken later msgBuf _ _ _ _ => cases hpoint
  | thrown fault later msgBuf => cases hpoint

/-- The offset climbs below the size of the content. -/
theorem climbs_ahead (parse : List UInt8 → Option JsonValue) (hsmall : content.length < 2 ^ 31) :
    Climbs (LoopStep parse) (Ahead content) (fun state => state.recvBuf.getoft.toNat)
      content.length where
  enabled := by
    intro source hahead
    obtain ⟨packet, hpoint⟩ := hahead.parsing
    rcases source with ⟨point, recvBuf, msgBuf⟩
    dsimp only at hpoint
    subst hpoint
    exact ⟨_, _, .parse (fun _ => 1) packet recvBuf msgBuf⟩
  raises := by
    intro source action target hahead hstep htarget
    have hclimb := (hahead.step hsmall hstep htarget.parsing).2
    have hoft := hahead.getoft_nonneg
    omega
  bounded := by
    intro state hahead
    have hmore := hahead.more
    have hoft := hahead.getoft_nonneg
    have hlength := state.recvBuf.length_le
    rw [hahead.data] at hlength
    rw [websocketHeaderMinSize] at hmore
    omega

/-- In a run that stays in the loop every pass starts as the first one does. -/
theorem ahead_of_run {entry : LoopState} (hentry : entry.Ahead content)
    (hsmall : content.length < 2 ^ 31) (hrun : Run (LoopStep parse) entry moves state)
    (hinside : ∀ move ∈ moves, move.source.Parsing) :
    (∀ move ∈ moves, move.source.Ahead content) ∧ (state.Parsing → state.Ahead content) := by
  induction hrun with
  | nil => exact ⟨by simp, fun _ => hentry⟩
  | @snoc moves source target action hprior hlast ih =>
      simp only [List.forall_mem_append, List.forall_mem_singleton] at hinside ⊢
      obtain ⟨hmoves, hsource⟩ := ih hinside.1
      have hahead := hsource hinside.2
      exact ⟨⟨hmoves, hahead⟩, fun htarget => (hahead.step hsmall hlast htarget).1⟩

/-- In the parse loop the offset is in range, and between its runs it is 0. -/
inductive LoopState.OffsetInRange (state : LoopState) : Prop
  | between (hpoint : ¬ state.Parsing) (hoft : state.recvBuf.oft = 0)
  | parsing (hahead : state.Ahead state.recvBuf.data)
  | faulted (fault : Fault) (hpoint : state.point = .faulted fault)

theorem LoopState.OffsetInRange.oft_eq (hrange : state.OffsetInRange)
    (hparsing : ¬ state.Parsing) (hfault : ∀ fault, state.point ≠ .faulted fault) :
    state.recvBuf.oft = 0 := by
  cases hrange with
  | between _ hoft => exact hoft
  | parsing hahead => exact absurd hahead.parsing hparsing
  | faulted fault hpoint => exact absurd hpoint (hfault fault)

theorem offsetInRange_endReads (recvStartLen totalRecvLen : Int) (indeterminate : MaskingKey)
    {recvBuf : ByteBuffer} (msgBuf : ByteBuffer) (hoft : recvBuf.oft = 0) :
    (endReads recvStartLen totalRecvLen indeterminate recvBuf msgBuf).OffsetInRange := by
  have hzero : recvBuf.getoft = 0 := by
    rw [getoft, hoft]
    exact toInt32_natCast (by decide)
  unfold endReads
  split
  · exact .between (by simp [Parsing]) hoft
  · split
    next hmore => exact .parsing (ahead_of_more msgBuf rfl (Int.le_of_eq hzero.symm) hmore.2)
    · exact .between (by simp [Parsing]) hoft

theorem offsetInRange_outcome {offset : Int} (hoffset : 0 ≤ offset)
    (houtcome : PassOutcome content offset target) : target.OffsetInRange := by
  cases houtcome with
  | again packet later msgBuf _ hfurther hmore =>
      exact .parsing (ahead_of_more msgBuf rfl (by omega) hmore)
  | broken later msgBuf _ _ _ hsuffix =>
      exact .between (by simp [Parsing, leaveParsing]) (congrArg ByteBuffer.oft hsuffix)
  | thrown fault later msgBuf => exact .faulted fault rfl

theorem offsetInRange_step (hsource : source.OffsetInRange)
    (hsmall : source.recvBuf.data.length < 2 ^ 31) (hstep : LoopStep parse source event target) :
    target.OffsetInRange := by
  have hrunning : ∀ fault, source.point ≠ .faulted fault := by
    cases hstep <;> simp
  by_cases hparsing : source.Parsing
  · cases hsource with
    | between hpoint _ => exact absurd hparsing hpoint
    | parsing hahead =>
        exact offsetInRange_outcome hahead.getoft_nonneg (hahead.outcome hsmall hstep)
    | faulted fault hpoint => exact absurd hpoint (hrunning fault)
  · have hoft := hsource.oft_eq hparsing hrunning
    cases hstep with
    | sslRead recvStartLen totalRecvLen recvBuf msgBuf bytes pending indeterminate =>
        unfold readChunk
        rw [append_all recvBuf bytes rfl]
        dsimp only
        split
        · exact .between (by simp [Parsing]) hoft
        · exact offsetInRange_endReads _ _ _ _ hoft
    | closed recvStartLen totalRecvLen recvBuf msgBuf indeterminate =>
        exact offsetInRange_endReads _ _ _ _ hoft
    | parse sslWrite packet recvBuf msgBuf => exact absurd ⟨packet, rfl⟩ hparsing
    | _ => exact .between (by simp [Parsing]) hoft

/-- The client enters the parse loop, and goes round it, with the offset in range. -/
theorem offsetInRange_of_run (hrun : Run (LoopStep parse) start moves state)
    (hsmall : ∀ move ∈ moves, move.source.recvBuf.data.length < 2 ^ 31) : state.OffsetInRange := by
  induction hrun with
  | nil => exact .between (by simp [Parsing, start]) rfl
  | @snoc moves source target action hprior hlast ih =>
      simp only [List.forall_mem_append, List.forall_mem_singleton] at hsmall
      exact offsetInRange_step (ih hsmall.1) hsmall.2 hlast

/-- **The parse loop ends on every input.** Each pass leaves it or moves the
offset forward, there are at most as many passes as bytes, and a run that is
still in the loop can be continued until it is left. -/
theorem parse_loop_ends {packet : WebSocketPacket} {recvBuf msgBuf : ByteBuffer}
    (hsmall : recvBuf.data.length < 2 ^ 31) (hoft : 0 ≤ recvBuf.getoft)
    (henter : recvBuf.length > recvBuf.getoft + websocketHeaderMinSize)
    (hrun : Run (LoopStep parse) ⟨.parsing packet, recvBuf, msgBuf⟩ moves state)
    (hinside : ∀ move ∈ moves, move.source.Parsing) :
    (∀ move ∈ moves,
      PassOutcome recvBuf.data move.source.recvBuf.getoft move.target) ∧
    (moves.length : Int) ≤ recvBuf.length ∧
    ∃ more final,
      Run (LoopStep parse) ⟨.parsing packet, recvBuf, msgBuf⟩ (moves ++ more) final ∧
      (∀ move ∈ more, move.source.Parsing) ∧ ¬ final.Parsing := by
  have hentry : Ahead recvBuf.data ⟨.parsing packet, recvBuf, msgBuf⟩ :=
    ahead_of_more msgBuf rfl hoft henter
  have hclimbs := climbs_ahead parse hsmall
  obtain ⟨hmoves, hstate⟩ := ahead_of_run hentry hsmall hrun hinside
  refine ⟨?_, ?_, ?_⟩
  · intro move hmove
    obtain ⟨_, _, hstep, _⟩ := hrun.exists_before hmove
    exact (hmoves move hmove).outcome hsmall hstep
  · have hlength : recvBuf.length = recvBuf.data.length := toInt32_natCast hsmall
    rw [hlength]
    exact Int.ofNat_le.mpr (hclimbs.length_le hrun hmoves)
  · obtain ⟨more, final, hmore, hsources, hfinal⟩ := hclimbs.exists_leaving hrun
    refine ⟨more, final, hmore, fun move hmove => (hsources move hmove).parsing, ?_⟩
    intro hparsing
    -- A run that is still in the loop would still be climbing.
    have hall : ∀ move ∈ moves ++ more, move.source.Parsing := by
      refine List.forall_mem_append.mpr ⟨hinside, fun move hmove => ?_⟩
      exact (hsources move hmove).parsing
    exact hfinal ((ahead_of_run hentry hsmall hmore hall).2 hparsing)

/-- Two frames of unknown opcodes, then a frame cut short. -/
def strangeFrames : ByteBuffer :=
  ⟨[0x0B, 0x01, 0x61, 0x7C, 0x01, 0x62, 0x80, 0x05, 0x63], 0⟩

def strangeEntry : LoopState :=
  ⟨.parsing (new (Vector.replicate 4 0)), strangeFrames, .empty⟩

def strangePass : LoopMoves :=
  let pass :=
    parseOnce (fun _ => none) (fun _ => 1) (new (Vector.replicate 4 0)) strangeFrames .empty
  [⟨strangeEntry, pass.1, pass.2⟩]

theorem parse_loop_ends_strangePass :
    (∀ move ∈ strangePass,
      PassOutcome strangeFrames.data move.source.recvBuf.getoft move.target) ∧
    (strangePass.length : Int) ≤ strangeFrames.length ∧
    ∃ more final, Run (LoopStep fun _ => none) strangeEntry (strangePass ++ more) final ∧
      (∀ move ∈ more, move.source.Parsing) ∧ ¬ final.Parsing :=
  parse_loop_ends (by decide) (by decide) (by decide) (Run.nil.snoc (.parse (fun _ => 1) _ _ _))
    (by simp [strangePass, strangeEntry, Parsing])

end Run

end CppFragments
